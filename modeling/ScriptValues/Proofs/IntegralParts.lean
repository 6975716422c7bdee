import ScriptValues.Operations.Computation
import ScriptValues.Proofs.CheckedIntegers
import ScriptValues.Proofs.NamedCalls
import ScriptValues.Proofs.NearestDoubles

/-!
# Whole numbers of doubles

`floor`, `ceil`, `Round` and `ToInt` make a whole number of the exact value of a double, each in its
own way, and answer it if it fits in 64 bits. NaN and the infinities have no value and overflow.
Integers are given back as they are: none of the four takes them through a double.

* `Double.Rounding.Rounds`: which whole number each way is to make of a rational number.
* `Double.Rounding.rounds_iff`: the integer division of each way makes that one, and only that.
* `Arithmetic.integralPartLaws`: what the builtins answer.
-/

namespace ScriptValues

namespace Double

variable {mode : Rounding} {x : Float} {q : ℚ} {u n m : ℤ} {d : Nat}

/-! ## Ways to make a whole number -/

/-- `n` is the whole number that a way of rounding makes of `q`. -/
def Rounding.Rounds : Rounding → ℚ → ℤ → Prop
  | .down, q, n => IsGreatest {m : ℤ | (m : ℚ) ≤ q} n
  | .up, q, n => IsLeast {m : ℤ | q ≤ (m : ℚ)} n
  | .towardZero, q, n =>
    if 0 ≤ q then IsGreatest {m : ℤ | (m : ℚ) ≤ q} n else IsLeast {m : ℤ | q ≤ (m : ℚ)} n
  -- every other whole number is further away, or as far away and closer to zero
  | .halfAwayFromZero, q, n =>
    ∀ m : ℤ, m ≠ n → |(n : ℚ) - q| < |(m : ℚ) - q| ∨ |(n : ℚ) - q| = |(m : ℚ) - q| ∧ |m| < |n|

/-- There is only one such number. -/
theorem Rounding.Rounds.unique (hn : mode.Rounds q n) (hm : mode.Rounds q m) : n = m := by
  cases mode with
  | down => exact IsGreatest.unique hn hm
  | up => exact IsLeast.unique hn hm
  | towardZero =>
    simp only [Rounds] at hn hm
    by_cases hq : 0 ≤ q
    · rw [if_pos hq] at hn hm
      exact hn.unique hm
    · rw [if_neg hq] at hn hm
      exact hn.unique hm
  | halfAwayFromZero =>
    by_contra hne
    rcases hn m (Ne.symm hne) with hlt | ⟨heq, hlt⟩
    · rcases hm n hne with hgt | ⟨heq, -⟩
      · exact absurd hlt (not_lt_of_gt hgt)
      · exact absurd heq.symm (ne_of_lt hlt)
    · rcases hm n hne with hgt | ⟨-, hgt⟩
      · exact absurd heq.symm (ne_of_lt hgt)
      · exact absurd hlt (not_lt_of_gt hgt)

theorem le_div_iff (hd : 0 < d) : (n : ℚ) ≤ u / d ↔ n * d ≤ u := by
  rw [le_div_iff₀ (Nat.cast_pos.2 hd)]
  exact_mod_cast Iff.rfl

theorem div_le_iff (hd : 0 < d) : (u : ℚ) / d ≤ n ↔ u ≤ n * d := by
  rw [div_le_iff₀ (Nat.cast_pos.2 hd)]
  exact_mod_cast Iff.rfl

/-- Division toward the smaller numbers. -/
theorem isGreatest_fdiv (u : ℤ) (hd : 0 < d) :
    IsGreatest {m : ℤ | (m : ℚ) ≤ u / d} (u.fdiv d) := by
  have hpos : (0 : ℤ) < d := Int.natCast_pos.2 hd
  rw [Int.fdiv_eq_ediv_of_nonneg u (Int.le_of_lt hpos)]
  constructor
  · show ((u / d : ℤ) : ℚ) ≤ u / d
    rw [le_div_iff hd]
    exact Int.ediv_mul_le u (ne_of_gt hpos)
  · intro m hm
    have hle : m * d ≤ u := (le_div_iff hd).1 hm
    exact (Int.le_ediv_iff_mul_le hpos).2 hle

/-- Division toward the larger numbers is that of the number on the other side of zero. -/
theorem isLeast_neg_fdiv (u : ℤ) (hd : 0 < d) :
    IsLeast {m : ℤ | (u : ℚ) / d ≤ m} (-(-u).fdiv d) := by
  obtain ⟨hmem, hbound⟩ := isGreatest_fdiv (-u) hd
  have hneg (k : ℤ) : ((u : ℚ) / d ≤ k) ↔ ((-k : ℤ) : ℚ) ≤ ((-u : ℤ) : ℚ) / d := by
    rw [div_le_iff hd, le_div_iff hd, Int.neg_mul]
    omega
  constructor
  · show (u : ℚ) / d ≤ _
    rw [hneg, Int.neg_neg]
    exact hmem
  · intro k hk
    have hle : -k ≤ (-u).fdiv d := hbound ((hneg k).1 hk)
    omega

/-- Of the multiples of a step, the one that is within half a step of a number is the nearest. If
it is just half a step above, then the only other one as near is the one below, closer to zero. -/
theorem distance_lt_or_of_half {r w : Nat} (hlow : r * (2 * d) ≤ 2 * w + d)
    (hhigh : 2 * w + d < (r + 1) * (2 * d)) (hne : m ≠ r) :
    (r * d - w : ℤ).natAbs < (m * d - w).natAbs ∨
      (r * d - w : ℤ).natAbs = (m * d - w).natAbs ∧ m.natAbs < r := by
  have hsplit : r * (2 * d) = 2 * (r * d) := by ring
  have hsplit' : (r + 1) * (2 * d) = 2 * (r * d) + 2 * d := by ring
  rw [← Int.natCast_mul]
  rcases Int.lt_or_gt_of_ne hne with hlt | hgt
  · have hfar : m * d ≤ (r - 1) * d := Int.mul_le_mul_of_nonneg_right (by omega) (by omega)
    rw [Int.sub_mul, Int.one_mul, ← Int.natCast_mul] at hfar
    by_cases hm : 0 ≤ m
    · omega
    · -- below zero, so no closer than zero
      have hneg : m * d ≤ (-1) * d := Int.mul_le_mul_of_nonneg_right (by omega) (by omega)
      omega
  · have hfar : (r + 1) * d ≤ m * d := Int.mul_le_mul_of_nonneg_right (by omega) (by omega)
    rw [Int.add_mul, Int.one_mul, ← Int.natCast_mul] at hfar
    omega

/-- Half a step is added to the magnitude before the division, so a tie goes away from zero. -/
theorem rounds_halfAwayFromZero (u : ℤ) (hd : 0 < d) :
    Rounding.halfAwayFromZero.Rounds ((u : ℚ) / d) (Rounding.halfAwayFromZero.apply u d) := by
  intro m hne
  have hpos : (0 : ℚ) < d := Nat.cast_pos.2 hd
  have hover (k : ℤ) : |(k : ℚ) - u / d| = ((k * d - u).natAbs : ℚ) / d := by
    rw [← abs_div_sub_div hpos, Int.cast_mul, Int.cast_natCast,
      mul_div_cancel_right₀ _ (ne_of_gt hpos)]
  rw [hover, hover, div_lt_div_iff_of_pos_right hpos, div_left_inj' (ne_of_gt hpos), Nat.cast_lt,
    Nat.cast_inj, Int.abs_eq_natAbs, Int.abs_eq_natAbs, Int.ofNat_lt]
  obtain ⟨r, hr⟩ : ∃ r, r = (2 * u.natAbs + d) / (2 * d) := ⟨_, rfl⟩
  have hlow : r * (2 * d) ≤ 2 * u.natAbs + d := by
    rw [hr]
    exact Nat.div_mul_le_self _ _
  have hhigh : 2 * u.natAbs + d < (r + 1) * (2 * d) := by
    rw [hr, Nat.mul_comm (_ / _ + 1)]
    exact Nat.lt_mul_div_succ _ (by omega)
  have happly : Rounding.halfAwayFromZero.apply u d = u.sign * r := by
    rw [hr]
    rfl
  rw [happly] at hne ⊢
  by_cases hu : u < 0
  · -- the distances below zero are those above it
    rw [Int.sign_eq_neg_one_of_neg hu, Int.neg_one_mul] at hne ⊢
    have habove := distance_lt_or_of_half (m := -m) hlow hhigh (by omega)
    rw [Int.neg_mul] at habove ⊢
    omega
  · have hsign : u.sign * r = r := by
      rcases Int.lt_or_eq_of_le (Int.not_lt.1 hu) with hlt | rfl
      · rw [Int.sign_eq_one_of_pos hlt, Int.one_mul]
      · have hzero : r = 0 := by
          rw [hr, Int.natAbs_zero, Nat.mul_zero, Nat.zero_add]
          exact Nat.div_eq_of_lt (by omega)
        rw [hzero]
        rfl
    rw [hsign] at hne ⊢
    have habove := distance_lt_or_of_half hlow hhigh hne
    omega

/-- The integer division of each way of rounding makes its whole number. -/
theorem Rounding.rounds_apply (mode : Rounding) (u : ℤ) (hd : 0 < d) :
    mode.Rounds ((u : ℚ) / d) (mode.apply u d) := by
  have hpos : (0 : ℚ) < d := Nat.cast_pos.2 hd
  cases mode with
  | down => exact isGreatest_fdiv u hd
  | up => exact isLeast_neg_fdiv u hd
  | towardZero =>
    have hsign : 0 ≤ (u : ℚ) / d ↔ 0 ≤ u := by
      rw [le_div_iff₀ hpos, zero_mul, Int.cast_nonneg_iff]
    simp only [Rounds, apply, hsign]
    by_cases hu : 0 ≤ u
    · rw [if_pos hu, ← Int.fdiv_eq_tdiv_of_nonneg hu (by omega)]
      exact isGreatest_fdiv u hd
    · have hneg : u.tdiv d = -(-u).fdiv d := by
        rw [Int.fdiv_eq_tdiv_of_nonneg (by omega) (by omega), Int.neg_tdiv, Int.neg_neg]
      rw [if_neg hu, hneg]
      exact isLeast_neg_fdiv u hd
  | halfAwayFromZero => exact rounds_halfAwayFromZero u hd

theorem Rounding.rounds_iff (mode : Rounding) (u : ℤ) (hd : 0 < d) :
    mode.Rounds ((u : ℚ) / d) n ↔ n = mode.apply u d := by
  constructor
  · intro hn
    exact hn.unique (mode.rounds_apply u hd)
  · rintro rfl
    exact mode.rounds_apply u hd

/-- Halves go away from zero on both sides. -/
example : Rounding.halfAwayFromZero.apply 5 2 = 3 ∧
    Rounding.halfAwayFromZero.apply (-5) 2 = -3 := by decide

/-- A whole number stays what it is, in every way. -/
theorem Rounding.rounds_intCast (mode : Rounding) (n : ℤ) : mode.Rounds n n := by
  have happly : mode.apply n 1 = n := by
    cases mode with
    | down => exact Int.fdiv_one n
    | up => exact (congrArg Neg.neg (Int.fdiv_one (-n))).trans (Int.neg_neg n)
    | towardZero => exact Int.tdiv_one n
    | halfAwayFromZero =>
      have hhalf : (2 * n.natAbs + 1) / (2 * 1) = n.natAbs := by omega
      show n.sign * ((2 * n.natAbs + 1) / (2 * 1) : Nat) = n
      rw [hhalf, Int.sign_mul_natAbs]
  have hrounds := mode.rounds_apply n Nat.one_pos
  rw [happly, Nat.cast_one, div_one] at hrounds
  exact hrounds

end Double

/-! ## The builtins -/

open Builtin Checked Double

/-- A builtin makes whole numbers in one of the ways. -/
structure MakesWhole (name : String) (mode : Rounding) : Prop where
  /-- An integer is given back. -/
  integer (i : Int64) : Gives name [.int i] (.ok (.int i))
  /-- A double with a value becomes the whole number of the way, if that fits. -/
  value (x : Float) (q : ℚ) : value? x = some q → ∃ n, (∀ m, mode.Rounds q m ↔ m = n) ∧
    (Fits n → ∃ i : Int64, i.toInt = n ∧ Gives name [.float x] (.ok (.int i))) ∧
    (¬ Fits n → Gives name [.float x] (.error (.failure ⟨name, .overflow⟩)))
  /-- NaN and the infinities, which have no value, overflow. -/
  noValue (x : Float) : value? x = none →
    Gives name [.float x] (.error (.failure ⟨name, .overflow⟩))

namespace Arithmetic

variable {name : String} {mode : Rounding}

/-- A double is made a whole number in one of the ways, and that is answered if it fits. -/
theorem makesWhole_of_gives (hint : ∀ i : Int64, Gives name [.int i] (.ok (.int i)))
    (hdouble : ∀ x, Gives name [.float x] (doubleToInt ⟨name, [.float x]⟩ mode x)) :
    MakesWhole name mode where
  integer := hint
  value := by
    intro x q hq
    have hx := hdouble x
    rw [value_eq, Option.map_eq_some_iff] at hq
    obtain ⟨u, hu, rfl⟩ := hq
    refine ⟨mode.apply u unitsPerOne, fun m => mode.rounds_iff u unitsPerOne_pos, ?_, ?_⟩
    · intro hfits
      refine ⟨_, toInt_ofInt hfits, ?_⟩
      rw [doubleToInt, integral?, hu, Option.map_some, Option.bind_some, ofInt_of_fits hfits] at hx
      exact hx
    · intro hfits
      rw [doubleToInt, integral?, hu, Option.map_some, Option.bind_some,
        ofInt_eq_none.2 hfits] at hx
      exact hx
  noValue := by
    intro x hnone
    have hx := hdouble x
    rw [value_eq, Option.map_eq_none_iff] at hnone
    rw [doubleToInt, integral?, hnone] at hx
    exact hx

/-- A double whose value is whole is that integer, or overflows. -/
theorem gives_of_whole {x : Float} {n : ℤ} (h : MakesWhole name mode)
    (hx : value? x = some (n : ℚ)) :
    (∀ i : Int64, i.toInt = n → Gives name [.float x] (.ok (.int i))) ∧
      (¬ Fits n → Gives name [.float x] (.error (.failure ⟨name, .overflow⟩))) := by
  obtain ⟨k, hk, hanswer, hoverflow⟩ := h.value x n hx
  obtain rfl : n = k := (hk n).1 (mode.rounds_intCast n)
  refine ⟨?_, hoverflow⟩
  rintro i rfl
  obtain ⟨j, hj, hgives⟩ := hanswer (fits_toInt i)
  rw [Int64.toInt_inj.1 hj] at hgives
  exact hgives

theorem makesWhole_toIntegral {c : Computation}
    (hname : lookup? name = some ⟨name, .compute c⟩) (harity : c.arity = .exact 1)
    (hrun : ∀ resolved a, c.run resolved a = toIntegral a mode) : MakesWhole name mode := by
  have haccepts : c.arity.accepts 1 := by
    rw [harity]
    rfl
  apply makesWhole_of_gives
  · intro i
    refine gives_of_run hname haccepts fun resolved => ?_
    rw [hrun]
    rfl
  · intro x
    refine gives_of_run hname haccepts fun resolved => ?_
    rw [hrun]
    rfl

theorem makesWhole_floor : MakesWhole "floor" .down :=
  makesWhole_toIntegral (c := .floor) (by decide +kernel) rfl fun _ _ => rfl

theorem makesWhole_ceil : MakesWhole "ceil" .up :=
  makesWhole_toIntegral (c := .ceil) (by decide +kernel) rfl fun _ _ => rfl

theorem makesWhole_round : MakesWhole "Round" .halfAwayFromZero :=
  makesWhole_toIntegral (c := .round) (by decide +kernel) rfl fun _ _ => rfl

theorem makesWhole_toInt : MakesWhole "ToInt" .towardZero := by
  have hname : lookup? "ToInt" = some ⟨"ToInt", .compute .toInt⟩ := by decide +kernel
  apply makesWhole_of_gives
  · intro i
    exact gives_of_run hname rfl fun _ => rfl
  · intro x
    exact gives_of_run hname rfl fun _ => rfl

/-- The four builtins that make whole numbers, and the way of each. -/
theorem integralPartLaws : MakesWhole "floor" .down ∧ MakesWhole "ceil" .up ∧
    MakesWhole "Round" .halfAwayFromZero ∧ MakesWhole "ToInt" .towardZero :=
  ⟨makesWhole_floor, makesWhole_ceil, makesWhole_round, makesWhole_toInt⟩

end Arithmetic

end ScriptValues
