import Mathlib.Algebra.Order.Ring.Int
import Mathlib.Tactic.Linarith
import Mathlib.Tactic.Ring
import ScriptValues.Number.Checked

/-!
# Checked integers are exact

A checked operation answers with the exact integer, and does not answer if that integer does not fit
in 64 bits. For powers this needs an argument: the loop stops as soon as one of its products does
not fit, and then the power does not fit either.

* `Checked.Fits`: the integers that fit.
* `Checked.ofInt_eq_some`, `Checked.ofInt_eq_none`: what is answered and what is not.
* `Checked.powLoop_eq`: squaring and multiplying overflows exactly if the power does.
-/

namespace ScriptValues

namespace Checked

/-- The integers that fit in 64 bits with a sign. -/
def Fits (n : Int) : Prop := -2 ^ 63 ≤ n ∧ n < 2 ^ 63

instance (n : Int) : Decidable (Fits n) := inferInstanceAs (Decidable (_ ∧ _))

theorem fits_of_natAbs_lt {n : Int} (h : n.natAbs < 2 ^ 63) : Fits n := by
  unfold Fits
  omega

theorem natAbs_le_of_fits {n : Int} (h : Fits n) : n.natAbs ≤ 2 ^ 63 := by
  unfold Fits at h
  omega

theorem fits_toInt (a : Int64) : Fits a.toInt := ⟨a.le_toInt, a.toInt_lt⟩

theorem toInt_ofInt {n : Int} (h : Fits n) : (Int64.ofInt n).toInt = n :=
  Int64.toInt_ofInt_of_le h.1 h.2

theorem ofInt_of_fits {n : Int} (h : Fits n) : ofInt? n = some (Int64.ofInt n) := by
  have hmin : Int64.minValue.toInt = -2 ^ 63 := rfl
  have hmax : Int64.maxValue.toInt = 2 ^ 63 - 1 := rfl
  obtain ⟨hlo, hhi⟩ := h
  unfold ofInt?
  rw [if_pos]
  omega

/-- An integer that does not fit is not answered. -/
theorem ofInt_eq_none {n : Int} : ofInt? n = none ↔ ¬ Fits n := by
  have hmin : Int64.minValue.toInt = -2 ^ 63 := rfl
  have hmax : Int64.maxValue.toInt = 2 ^ 63 - 1 := rfl
  unfold ofInt? Fits
  split
  · next h => simp; omega
  · next h => simp; omega

/-- What is answered is the integer itself. -/
theorem ofInt_eq_some {n : Int} {r : Int64} : ofInt? n = some r ↔ r.toInt = n := by
  constructor
  · intro h
    have hfits : Fits n := by
      apply Classical.byContradiction
      intro hn
      rw [ofInt_eq_none.2 hn] at h
      cases h
    rw [ofInt_of_fits hfits] at h
    rw [← Option.some.inj h, toInt_ofInt hfits]
  · rintro rfl
    rw [ofInt_of_fits (fits_toInt r), Int64.ofInt_toInt]

theorem ofInt_toInt (a : Int64) : ofInt? a.toInt = some a := ofInt_eq_some.2 rfl

/-! ## Overflow on the way to a power -/

/-- No square is `2 ^ 63`. -/
theorem square_ne (b : Int) : b * b ≠ 2 ^ 63 := by
  intro h
  have hlo : 3037000499 < b ∨ b < -3037000499 := by
    by_contra hin
    obtain ⟨hle, hge⟩ := not_or.1 hin
    nlinarith
  rcases hlo with hb | hb
  · nlinarith
  · nlinarith

/-- A product that is too large stays so when it is multiplied by a positive integer. -/
theorem not_fits_mul {n c : Int} (h : ¬ Fits n) (hc : 1 ≤ c) : ¬ Fits (n * c) := by
  unfold Fits at *
  rcases lt_or_ge n (-2 ^ 63) with hn | hn
  · have hle : n * c ≤ n * 1 := Int.mul_le_mul_of_nonpos_left (by omega) hc
    omega
  · have hge : n * 1 ≤ n * c := Int.mul_le_mul_of_nonneg_left hc (by omega)
    omega

/-- A square that is too large makes every multiple of one of its powers too large, on either side
of zero. -/
theorem not_fits_mul_square {r b : Int} {k : Nat} (h : ¬ Fits (b * b)) (hr : r ≠ 0) (hk : 1 ≤ k) :
    ¬ Fits (r * (b * b) ^ k) := by
  have hnonneg : 0 ≤ b * b := mul_self_nonneg b
  have hne := square_ne b
  have hlarge : 2 ^ 63 < b * b := by
    unfold Fits at h
    omega
  have hpow : b * b ≤ (b * b) ^ k := by
    calc b * b = (b * b) ^ 1 := (pow_one _).symm
      _ ≤ (b * b) ^ k := pow_le_pow_right₀ (by omega) hk
  generalize (b * b) ^ k = power at hpow
  unfold Fits
  rcases lt_or_gt_of_ne hr with hneg | hpos
  · have hle : r * power ≤ -1 * power := Int.mul_le_mul_of_nonneg_right (by omega) (by omega)
    omega
  · have hge : 1 * power ≤ r * power := Int.mul_le_mul_of_nonneg_right (by omega) (by omega)
    omega

/-- Squaring and multiplying gives the exact product, and stops exactly if that does not fit. The
products on the way are parts of the result, since no factor is zero unless the base is. -/
theorem powLoop_eq {result base : Int64} {exponent : Nat} (he : 1 ≤ exponent)
    (hne : result.toInt ≠ 0 ∨ base.toInt = 0) :
    powLoop? result base exponent = ofInt? (result.toInt * base.toInt ^ exponent) := by
  induction exponent using Nat.strong_induction_on generalizing result base with
  | _ exponent ih =>
    unfold powLoop?
    by_cases hone : exponent ≤ 1
    · obtain rfl : exponent = 1 := by omega
      rw [if_pos hone, mul?, pow_one]
    · rw [if_neg hone]
      have hhalf : 1 ≤ exponent / 2 := by omega
      have hlt : exponent / 2 < exponent := by omega
      -- the rest of the loop, once the factor of an odd exponent is in the result
      have hrest : ∀ r : Int64, (r.toInt ≠ 0 ∨ base.toInt = 0) →
          ((mul? base base).bind fun base' => powLoop? r base' (exponent / 2)) =
            ofInt? (r.toInt * (base.toInt * base.toInt) ^ (exponent / 2)) := by
        intro r hr
        cases hsquare : mul? base base with
        | none =>
          have hfits := ofInt_eq_none.1 hsquare
          have hbase : base.toInt ≠ 0 := by
            intro h0
            rw [h0] at hfits
            exact hfits (by decide)
          have hr0 : r.toInt ≠ 0 := hr.resolve_right hbase
          exact (ofInt_eq_none.2 (not_fits_mul_square hfits hr0 hhalf)).symm
        | some base' =>
          have hbase' := ofInt_eq_some.1 hsquare
          have hne' : r.toInt ≠ 0 ∨ base'.toInt = 0 := by
            rcases hr with hr | hb
            · exact .inl hr
            · exact .inr (by rw [hbase', hb]; rfl)
          rw [Option.bind_some, ih _ hlt hhalf hne', hbase']
      by_cases hodd : exponent % 2 = 1
      · have hpow : result.toInt * base.toInt ^ exponent =
            result.toInt * base.toInt * (base.toInt * base.toInt) ^ (exponent / 2) := by
          have hsplit : exponent = 2 * (exponent / 2) + 1 := by omega
          conv_lhs => rw [hsplit]
          rw [pow_succ, pow_mul, sq]
          ring
        rw [if_pos hodd, hpow]
        cases hfirst : mul? result base with
        | none =>
          have hfits := ofInt_eq_none.1 hfirst
          have hbase : base.toInt ≠ 0 := by
            intro h0
            rw [h0, mul_zero] at hfits
            exact hfits (by decide)
          have hpos : 1 ≤ (base.toInt * base.toInt) ^ (exponent / 2) := by
            have hsquare : 0 < base.toInt * base.toInt := mul_self_pos.2 hbase
            exact pow_pos hsquare _
          exact (ofInt_eq_none.2 (not_fits_mul hfits hpos)).symm
        | some r =>
          have hr := ofInt_eq_some.1 hfirst
          rw [← hr]
          apply hrest r
          rcases hne with hne | hb
          · by_cases hb : base.toInt = 0
            · exact .inr hb
            · exact .inl (by rw [hr]; exact mul_ne_zero hne hb)
          · exact .inr hb
      · have hpow : result.toInt * base.toInt ^ exponent =
            result.toInt * (base.toInt * base.toInt) ^ (exponent / 2) := by
          have hsplit : exponent = 2 * (exponent / 2) := by omega
          conv_lhs => rw [hsplit]
          rw [pow_mul, sq]
        rw [if_neg hodd, hpow]
        exact hrest result hne

/-- Within the exponents that are tried, a power is answered exactly if it fits. -/
theorem pow_eq {a : Int64} {exponent : Nat} (h : exponent ≤ maxExponent) :
    pow? a exponent = ofInt? (a.toInt ^ exponent) := by
  unfold pow?
  rw [if_neg (by omega)]
  by_cases h0 : exponent = 0
  · rw [if_pos h0, h0, pow_zero]
    rfl
  · rw [if_neg h0, powLoop_eq (by omega) (.inl (by decide))]
    congr 1
    exact one_mul _

/-- A larger power that fits is one of 0, 1 and -1; it is not answered all the same. -/
theorem pow_eq_none {a : Int64} {exponent : Nat} (h : maxExponent < exponent) :
    pow? a exponent = none := by
  rw [pow?, if_pos h]

/-! ## Division -/

theorem div_eq {a b : Int64} (hb : b ≠ 0) : div? a b = ofInt? (a.toInt.tdiv b.toInt) := by
  rw [div?, if_neg hb]

/-- The remainder always fits; it is answered where the quotient fits. -/
theorem rem_eq {a b : Int64} (hb : b ≠ 0) :
    rem? a b = if Fits (a.toInt.tdiv b.toInt) then ofInt? (a.toInt.tmod b.toInt) else none := by
  rw [rem?, div_eq hb]
  split
  · next h =>
    rw [ofInt_of_fits h]
    rfl
  · next h =>
    rw [ofInt_eq_none.2 h]
    rfl

end Checked

end ScriptValues
