import ScriptValues.Proofs.IntegralParts

/-!
# Integers as doubles

Next to a double an integer becomes the double nearest to it. Up to `2 ^ 53` that is the integer
itself. Beyond, the double may be another one, but its value is whole, so the way back gives an
integer as well, unless the double is `2 ^ 63`, to which the last 512 integers are rounded.

* `Double.exists_whole`: the double nearest to an integer is whole, and where it is `2 ^ 63`.
* `Double.le_ofInt`: larger integers become larger doubles.
* `Arithmetic.promotionLaws`: what becomes of an integer, and of the double on its way back.
-/

namespace ScriptValues

namespace Double

variable {m n k j : Nat}

/-! ## Whole numbers on the ladder -/

/-- Twice a rung is a rung: the same significand at the next scale, or twice a small one. -/
theorem exists_rung_two_mul (j : Nat) : ∃ l, rung l = 2 * rung j := by
  obtain ⟨scale, n, rfl, hlt, hpos⟩ := exists_split j
  rw [rung_eq (Nat.le_of_lt hlt) hpos]
  by_cases hn : 2 ^ 52 ≤ n
  · refine ⟨(1 + scale) * 2 ^ 52 + n, ?_⟩
    rw [rung_eq (Nat.le_of_lt hlt) fun _ => hn, twoTo_add, show twoTo 1 = 2 from rfl]
    ring
  · have hscale : scale = 0 := by omega
    subst hscale
    refine ⟨0 * 2 ^ 52 + 2 * n, ?_⟩
    rw [rung_eq (by omega) (by omega)]
    ring

/-- A multiple of a power of two is a rung if its factor has at most 53 bits. -/
theorem exists_rung_eq (hk : k ≤ 2 ^ 53) (e : Nat) : ∃ j, rung j = k * twoTo e := by
  induction e with
  | zero =>
    refine ⟨0 * 2 ^ 52 + k, ?_⟩
    rw [rung_eq hk (by omega)]
  | succ e ih =>
    obtain ⟨j, hj⟩ := ih
    obtain ⟨l, hl⟩ := exists_rung_two_mul j
    refine ⟨l, ?_⟩
    rw [hl, hj, twoTo_add, show twoTo 1 = 2 from rfl]
    ring

/-- The magnitude that a natural number is rounded to. -/
def magnitudeOf (n : Nat) : Nat := nearestMagnitude (n * unitsPerOne) 1

theorem magnitudeOf_mono (h : m ≤ n) : magnitudeOf m ≤ magnitudeOf n :=
  nearestMagnitude_mono Nat.one_pos (Nat.mul_le_mul_right _ h)

theorem magnitudeOf_eq (hj : j ≤ infinityBits) (h : rung j = n * unitsPerOne) :
    magnitudeOf n = j := by
  rw [magnitudeOf, ← h, nearestMagnitude_rung hj]

/-- Up to `2 ^ 53` nothing is lost. -/
theorem rung_magnitudeOf (h : n ≤ 2 ^ 53) : rung (magnitudeOf n) = n * unitsPerOne := by
  obtain ⟨j, hrung⟩ := exists_rung_eq h 1074
  have hj : rung j = n * unitsPerOne := hrung
  have hlt : rung j < rung infinityBits := by
    have hle : n * unitsPerOne ≤ 2 ^ 53 * unitsPerOne := Nat.mul_le_mul_right _ h
    have htop : 2 ^ 53 * unitsPerOne < rung infinityBits := by decide +kernel
    omega
  rw [magnitudeOf_eq (Nat.le_of_lt (rung_strictMono.lt_iff_lt.1 hlt)) hj, hj]

theorem magnitudeOf_two_pow_53 : magnitudeOf (2 ^ 53) = 1076 * 2 ^ 52 :=
  magnitudeOf_eq (by decide +kernel) (by decide +kernel)

theorem magnitudeOf_two_pow_63 : magnitudeOf (2 ^ 63) = 1086 * 2 ^ 52 :=
  magnitudeOf_eq (by decide +kernel) (by decide +kernel)

/-- From `2 ^ 53` on the steps are whole numbers. -/
theorem unitsPerOne_dvd_rung (h : 2 ^ 53 ≤ n) : unitsPerOne ∣ rung (magnitudeOf n) := by
  have hmono := magnitudeOf_mono h
  rw [magnitudeOf_two_pow_53] at hmono
  obtain ⟨rest, hrest⟩ : ∃ rest, magnitudeOf n / 2 ^ 52 - 1 = 1074 + rest :=
    Nat.exists_eq_add_of_le (by omega)
  rw [rung, hrest, twoTo_add]
  exact Dvd.dvd.mul_left (Nat.dvd_mul_right unitsPerOne _) _

/-- The last natural numbers below `2 ^ 63` are rounded to it. -/
theorem magnitudeOf_lt_iff : magnitudeOf n < 1086 * 2 ^ 52 ↔ n < 2 ^ 63 - 512 := by
  have hhalf : halfway (1086 * 2 ^ 52 - 1) = (2 ^ 64 - 1024) * unitsPerOne := by decide +kernel
  have hunits := unitsPerOne_pos
  have hle : magnitudeOf n ≤ 1086 * 2 ^ 52 - 1 ↔
      BelowHalf (1086 * 2 ^ 52 - 1) (n * unitsPerOne) 1 :=
    nearestMagnitude_le_iff Nat.one_pos (by decide +kernel)
  unfold BelowHalf at hle
  rw [hhalf, Nat.mul_one, ← Nat.mul_assoc, Nat.mul_lt_mul_right hunits] at hle
  omega

/-- The first of them lies in the middle between two doubles, of which `2 ^ 63` is the even one. -/
example : magnitudeOf (2 ^ 63 - 512) = magnitudeOf (2 ^ 63) := by decide +kernel

/-- The double nearest to a natural number is whole, at most `2 ^ 63` if the number is, and just
that if the number is one of the last ones before it. -/
theorem exists_whole (h : n ≤ 2 ^ 63) : ∃ w, rung (magnitudeOf n) = w * unitsPerOne ∧
    (n ≤ 2 ^ 53 → w = n) ∧ w ≤ 2 ^ 63 ∧ (2 ^ 63 ≤ w ↔ 2 ^ 63 - 512 ≤ n) := by
  have hunits := unitsPerOne_pos
  have htop : rung (1086 * 2 ^ 52) = 2 ^ 63 * unitsPerOne := by decide +kernel
  obtain ⟨w, hw⟩ : ∃ w, rung (magnitudeOf n) = w * unitsPerOne := by
    by_cases hsmall : n ≤ 2 ^ 53
    · exact ⟨n, rung_magnitudeOf hsmall⟩
    · exact exists_eq_mul_left_of_dvd (unitsPerOne_dvd_rung (by omega))
  have hlarge : rung (1086 * 2 ^ 52) ≤ rung (magnitudeOf n) ↔ 1086 * 2 ^ 52 ≤ magnitudeOf n :=
    rung_strictMono.le_iff_le
  rw [htop, hw, Nat.mul_le_mul_right_iff hunits] at hlarge
  have hle : w ≤ 2 ^ 63 := by
    have hmono := magnitudeOf_mono h
    rw [magnitudeOf_two_pow_63, ← rung_strictMono.le_iff_le, htop, hw,
      Nat.mul_le_mul_right_iff hunits] at hmono
    exact hmono
  refine ⟨w, hw, ?_, hle, ?_⟩
  · intro hsmall
    rw [rung_magnitudeOf hsmall] at hw
    exact (Nat.mul_right_cancel hunits hw).symm
  · have hlt := magnitudeOf_lt_iff (n := n)
    omega

/-! ## Integers as doubles -/

variable {i : ℤ}

theorem ofInt_eq (i : ℤ) :
    ofInt i = ofBits (signBits (decide (i < 0)) + magnitudeOf i.natAbs) := rfl

/-- The double of an integer is the nearest one. -/
theorem roundsTo_ofInt (i : ℤ) : RoundsTo i (ofInt i) := by
  have hpow : (2 : ℚ) ^ 1074 ≠ 0 := by positivity
  have hunits : (unitsPerOne : ℚ) = 2 ^ 1074 := cast_twoTo 1074
  have hrounds := roundsTo_nearest (decide (i < 0)) (i.natAbs * unitsPerOne) Nat.one_pos
  rw [cast_signed_mul, signed_natAbs, hunits, Nat.cast_one, one_mul,
    mul_div_cancel_right₀ _ hpow] at hrounds
  exact hrounds

theorem magnitudeOf_lt_infinityBits (h : n ≤ 2 ^ 63) : magnitudeOf n < infinityBits := by
  have hmono := magnitudeOf_mono h
  have hinf : infinityBits = 2047 * 2 ^ 52 := rfl
  rw [magnitudeOf_two_pow_63] at hmono
  omega

theorem place_of_finite {x : Float} {negative : Bool} {significand scale : Nat}
    (h : decode x = .finite negative significand scale) : place? x = units? x := by
  simp only [place?, h]

theorem place_ofInt (h : i.natAbs ≤ 2 ^ 63) :
    place? (ofInt i) = some (signed (decide (i < 0)) (rung (magnitudeOf i.natAbs))) := by
  have hlt := magnitudeOf_lt_infinityBits h
  have hdecode := decode_magnitude (decide (i < 0)) (Nat.le_of_lt hlt)
  rw [decodeBits_of_lt _ hlt] at hdecode
  exact (place_of_finite hdecode).trans (units_ofBits _ hlt)

theorem le_iff_of_place {x y : Float} {a b : ℤ} (hx : place? x = some a) (hy : place? y = some b) :
    le x y ↔ a ≤ b := by
  simp only [le, hx, hy, decide_eq_true_eq]

/-- Larger integers become larger doubles. -/
theorem le_ofInt {i' : ℤ} (h : i.natAbs ≤ 2 ^ 63) (h' : i'.natAbs ≤ 2 ^ 63) (hle : i ≤ i') :
    le (ofInt i) (ofInt i') := by
  have hmono (j k : ℤ) (hjk : j.natAbs ≤ k.natAbs) :
      rung (magnitudeOf j.natAbs) ≤ rung (magnitudeOf k.natAbs) :=
    rung_strictMono.monotone (magnitudeOf_mono hjk)
  rw [le_iff_of_place (place_ofInt h) (place_ofInt h')]
  by_cases hneg : i < 0
  · rw [decide_eq_true hneg, signed_true]
    by_cases hneg' : i' < 0
    · -- both below zero: the larger magnitude is the smaller number
      have hrung := hmono i' i (by omega)
      rw [decide_eq_true hneg', signed_true]
      omega
    · rw [decide_eq_false hneg', signed_false]
      omega
  · have hrung := hmono i i' (by omega)
    rw [decide_eq_false hneg, decide_eq_false (by omega : ¬ i' < 0), signed_false, signed_false]
    omega

/-- The value of the double of an integer: a whole number, which fits unless the integer is one of
the last. -/
theorem exists_value_ofInt (h : i.natAbs ≤ 2 ^ 63) (hfits : i < 2 ^ 63) :
    ∃ w : ℤ, value? (ofInt i) = some (w : ℚ) ∧ (i.natAbs ≤ 2 ^ 53 → w = i) ∧
      (Checked.Fits w ↔ i < 2 ^ 63 - 512) := by
  obtain ⟨w, hw, hexact, hle, hlarge⟩ := exists_whole h
  have hunits : (unitsPerOne : ℚ) ≠ 0 := Nat.cast_ne_zero.2 (ne_of_gt unitsPerOne_pos)
  refine ⟨signed (decide (i < 0)) w, ?_, ?_, ?_⟩
  · rw [ofInt_eq, value_eq, units_ofBits _ (magnitudeOf_lt_infinityBits h), hw, Option.map_some,
      cast_signed_mul, mul_div_cancel_right₀ _ hunits]
  · intro hsmall
    rw [hexact hsmall, signed_natAbs]
  · by_cases hneg : i < 0
    · rw [decide_eq_true hneg, signed_true, Checked.Fits]
      omega
    · rw [decide_eq_false hneg, signed_false, Checked.Fits]
      omega

end Double

/-! ## There and back -/

open Builtin Checked Double

/-- A builtin takes the double of an integer back. -/
structure TakesBack (name : String) (n : Int64) (x : Float) : Prop where
  /-- Up to `2 ^ 53` to the integer itself. -/
  kept : n.toInt.natAbs ≤ 2 ^ 53 → Gives name [.float x] (.ok (.int n))
  /-- Then to the integer that the double is. -/
  whole : n.toInt < 2 ^ 63 - 512 →
    ∃ i : Int64, value? x = some (i.toInt : ℚ) ∧ Gives name [.float x] (.ok (.int i))
  /-- And the last 512 integers not at all. -/
  overflow : Gives name [.float x] (.error (.failure ⟨name, .overflow⟩)) ↔
    2 ^ 63 - 512 ≤ n.toInt

/-- `x` is the double that an integer becomes. -/
structure Promotes (n : Int64) (x : Float) : Prop where
  coerced (operator : BinaryOperator) (y : Float) :
    coerce (.int n) (.float y) operator = ⟨.float x, .float y, true⟩ ∧
      coerce (.float y) (.int n) operator = ⟨.float y, .float x, true⟩
  asFloat : (Value.int n).asFloat? = some x
  nearest : RoundsTo n.toInt x
  sign : isNegative x = decide (n.toInt < 0)
  toInt : TakesBack "ToInt" n x
  floor : TakesBack "floor" n x
  ceil : TakesBack "ceil" n x
  round : TakesBack "Round" n x

structure PromotionLaws : Prop where
  promotes (n : Int64) : Promotes n (Double.ofInt n.toInt)
  monotone {n m : Int64} : n ≤ m → Double.le (Double.ofInt n.toInt) (Double.ofInt m.toInt)

namespace Arithmetic

theorem takesBack {name : String} {mode : Rounding} (h : MakesWhole name mode) (n : Int64) :
    TakesBack name n (Double.ofInt n.toInt) := by
  obtain ⟨w, hw, hexact, hfits⟩ := exists_value_ofInt (natAbs_le_of_fits (fits_toInt n)) n.toInt_lt
  obtain ⟨hanswer, hoverflow⟩ := gives_of_whole h hw
  constructor
  · intro hsmall
    exact hanswer n (hexact hsmall).symm
  · intro hlt
    have hi := toInt_ofInt (hfits.2 hlt)
    exact ⟨Int64.ofInt w, by rw [hi, hw], hanswer _ hi⟩
  · constructor
    · intro hgives
      by_contra hlt
      have hi := toInt_ofInt (hfits.2 (by omega))
      cases hgives.unique (hanswer _ hi)
    · intro hge
      apply hoverflow
      rw [hfits]
      omega

theorem promotes_ofInt (n : Int64) : Promotes n (Double.ofInt n.toInt) where
  coerced := fun _ _ => ⟨rfl, rfl⟩
  asFloat := rfl
  nearest := roundsTo_ofInt n.toInt
  sign := isNegative_ofBits _ (nearestMagnitude_le_infinityBits _ _)
  toInt := takesBack makesWhole_toInt n
  floor := takesBack makesWhole_floor n
  ceil := takesBack makesWhole_ceil n
  round := takesBack makesWhole_round n

theorem promotionLaws : PromotionLaws where
  promotes := promotes_ofInt
  monotone := by
    intro n m hle
    apply le_ofInt (natAbs_le_of_fits (fits_toInt n)) (natAbs_le_of_fits (fits_toInt m))
    exact Int64.le_iff_toInt_le.1 hle

end Arithmetic

end ScriptValues
