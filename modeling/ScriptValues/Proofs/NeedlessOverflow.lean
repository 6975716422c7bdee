import ScriptValues.Proofs.ExactArithmetic

/-!
# Overflow of results that fit

Two integers that an operator takes have an exact result. The call answers it if it fits and
overflows if it does not, except where the operator refuses integers whose result fits. Only two
operators do so, and both at the end of a range: the remainder of the least integer by -1, because
the quotient does not fit, and the powers of 0, 1 and -1 with an exponent of 33 bits or more,
because no exponent of that size is tried.

* `Arithmetic.Exact`: a call answers what fits, and overflows exactly if it does not fit.
* `Arithmetic.exact_iff`: every operator is exact, except on integers that it refuses needlessly.
* `Arithmetic.powers_exact_iff`, `Arithmetic.remainders_exact_iff`: which integers these are.
-/

namespace ScriptValues

/-! ## What fits -/

namespace Checked

/-- Every power of 0, 1 and -1 fits. -/
theorem fits_pow {b : Int} (hb : b.natAbs ≤ 1) (e : Nat) : Fits (b ^ e) := by
  apply fits_of_natAbs_lt
  rw [Int.natAbs_pow]
  calc b.natAbs ^ e ≤ 1 ^ e := Nat.pow_le_pow_left hb e
    _ = 1 := Nat.one_pow e
    _ < 2 ^ 63 := by decide

/-- A power of any other integer is too large from the exponent 64 on. -/
theorem not_fits_pow {b : Int} {e : Nat} (hb : 2 ≤ b.natAbs) (he : 64 ≤ e) : ¬ Fits (b ^ e) := by
  intro h
  have hle := natAbs_le_of_fits h
  have hpow : 2 ^ 64 ≤ b.natAbs ^ e :=
    calc 2 ^ 64 ≤ 2 ^ e := Nat.pow_le_pow_right (by decide) he
      _ ≤ b.natAbs ^ e := Nat.pow_le_pow_left hb e
  rw [Int.natAbs_pow] at hle
  omega

/-- The remainder of a division always fits. -/
theorem fits_tmod {a b : Int} (hb : Fits b) (hne : b ≠ 0) : Fits (a.tmod b) := by
  have hlt : a.natAbs % b.natAbs < b.natAbs := Nat.mod_lt _ (by omega)
  have hle := natAbs_le_of_fits hb
  apply fits_of_natAbs_lt
  rw [Int.natAbs_tmod]
  omega

/-- The one quotient that does not fit is that of the least integer by -1. -/
theorem not_fits_tdiv_iff {a b : Int} (ha : Fits a) :
    ¬ Fits (a.tdiv b) ↔ a = -2 ^ 63 ∧ b = -1 := by
  constructor
  · intro h
    have hle : (a.tdiv b).natAbs ≤ a.natAbs := Int.natAbs_tdiv_le_natAbs a b
    have hdiv : (a.tdiv b).natAbs = a.natAbs / b.natAbs := Int.natAbs_tdiv a b
    by_cases hone : b.natAbs = 1
    · obtain rfl | rfl : b = 1 ∨ b = -1 := by omega
      · rw [Int.tdiv_one] at h
        exact absurd ha h
      · rw [Int.tdiv_neg, Int.tdiv_one] at h
        unfold Fits at ha h
        omega
    · -- a divisor of 0 gives 0, and a divisor of 2 or more halves the dividend
      have hhalf : a.natAbs / b.natAbs ≤ a.natAbs / 2 := by
        rcases Nat.eq_zero_or_pos b.natAbs with hzero | hpos
        · rw [hzero, Nat.div_zero]
          omega
        · exact Nat.div_le_div_left (by omega) (by decide)
      have habs := natAbs_le_of_fits ha
      exact absurd (fits_of_natAbs_lt (by omega)) h
  · rintro ⟨rfl, rfl⟩
    decide

end Checked

namespace Arithmetic

open BinaryOperator Checked

variable {operator : BinaryOperator} {x y : Int64}

/-! ## Exact calls -/

/-- A call on two integers answers the exact result if that fits, and overflows if it does not. -/
structure Exact (operator : BinaryOperator) (x y : Int64) (r : Result Value) : Prop where
  answered : Fits (operator.exact x.toInt y.toInt) →
    ∃ n : Int64, r = .ok (.int n) ∧ n.toInt = operator.exact x.toInt y.toInt
  overflow : r = fails operator .overflow ↔ ¬ Fits (operator.exact x.toInt y.toInt)

/-- A call of an operator on two integers changes nothing in the world. -/
theorem tryCall_integers (operator : BinaryOperator) (x y : Int64) (w : World) :
    operator.builtin.tryCall [.int x, .int y] w =
      (onIntegers ⟨operator.builtin.name, [.int x, .int y]⟩ operator x y, w) := by
  rw [Builtin.tryCall_run, Builtin.arity, builtin_operation]
  exact Operation.arithmeticStep_run operator w

/-- On the integers that it takes an operator is exact, unless it refuses two whose result fits. -/
theorem exact_iff (ht : operator.Takes y.toInt) (values : List Value) :
    Exact operator x y (onIntegers ⟨operator.builtin.name, values⟩ operator x y) ↔
      ¬ (operator.Refuses x.toInt y.toInt ∧ Fits (operator.exact x.toInt y.toInt)) := by
  rw [onIntegers_of_takes ht]
  by_cases hrefuses : operator.Refuses x.toInt y.toInt
  · rw [checked_eq_none ht hrefuses]
    constructor
    · rintro h ⟨-, hfits⟩
      exact h.overflow.1 rfl hfits
    · intro h
      have hfits : ¬ Fits (operator.exact x.toInt y.toInt) := fun hfits => h ⟨hrefuses, hfits⟩
      exact ⟨fun hf => absurd hf hfits, fun _ => hfits, fun _ => rfl⟩
  · rw [checked_eq ht hrefuses]
    refine iff_of_true ?_ fun h => hrefuses h.1
    by_cases hfits : Fits (operator.exact x.toInt y.toInt)
    · rw [ofInt_of_fits hfits]
      refine ⟨fun _ => ⟨_, rfl, toInt_ofInt hfits⟩, fun h => ?_, fun h => absurd hfits h⟩
      exact absurd h.symm fails_ne_ok
    · rw [ofInt_eq_none.2 hfits]
      exact ⟨fun hf => absurd hf hfits, fun _ => hfits, fun _ => rfl⟩

/-- The integers that an operator refuses overflow. -/
theorem onIntegers_of_refuses (ht : operator.Takes y.toInt)
    (hr : operator.Refuses x.toInt y.toInt) (values : List Value) :
    onIntegers ⟨operator.builtin.name, values⟩ operator x y = fails operator .overflow := by
  rw [onIntegers_of_takes ht, checked_eq_none ht hr]
  rfl

/-! ## Powers -/

theorem takes_power (hy : 0 ≤ y.toInt) : power.Takes y.toInt :=
  ⟨fun h => (nomatch h), fun _ => hy⟩

theorem refuses_power_iff : power.Refuses x.toInt y.toInt ↔ 2 ^ 32 ≤ y.toInt := by
  have hmax : (maxExponent : Int) = 2 ^ 32 - 1 := rfl
  unfold Refuses
  rw [hmax]
  constructor
  · rintro (⟨h, -⟩ | ⟨-, h⟩)
    · cases h
    · omega
  · intro h
    exact .inr ⟨rfl, by omega⟩

/-- The exponents that are not tried matter for three bases only. -/
theorem refuses_fitting_power_iff :
    power.Refuses x.toInt y.toInt ∧ Fits (power.exact x.toInt y.toInt) ↔
      2 ^ 32 ≤ y.toInt ∧ x.toInt.natAbs ≤ 1 := by
  rw [refuses_power_iff]
  constructor
  · rintro ⟨hy, hfits⟩
    refine ⟨hy, ?_⟩
    by_contra hx
    exact not_fits_pow (by omega) (by omega) hfits
  · rintro ⟨hy, hx⟩
    exact ⟨hy, fits_pow hx _⟩

/-- An integer to an exponent that is not negative: the call answers the power if it fits and
overflows if it does not, unless the base is 0, 1 or -1 and the exponent has 33 bits or more. Then
it overflows as well. -/
theorem powers_exact_iff (hy : 0 ≤ y.toInt) (w : World) :
    Builtin.lookup? "Power" = some power.builtin ∧
    ∃ r, power.builtin.tryCall [.int x, .int y] w = (r, w) ∧
      (Exact .power x y r ↔ ¬ (2 ^ 32 ≤ y.toInt ∧ x.toInt.natAbs ≤ 1)) ∧
      (2 ^ 32 ≤ y.toInt → r = fails .power .overflow) := by
  have ht := takes_power hy
  refine ⟨rfl, _, tryCall_integers .power x y w, ?_, fun hlarge => ?_⟩
  · rw [exact_iff ht, refuses_fitting_power_iff]
  · exact onIntegers_of_refuses ht (refuses_power_iff.2 hlarge) _

/-- The largest exponent that is tried is odd, so it leaves -1 as it is. -/
theorem powers_exact_minusOne :
    0 ≤ (4294967295 : Int64).toInt ∧
    ∃ n : Int64, n.toInt = -1 ∧
      power.builtin.tryCall [.int (-1), .int 4294967295] .bare = (.ok (.int n), .bare) := by
  have hy : 0 ≤ (4294967295 : Int64).toInt := by decide
  obtain ⟨-, r, hr, hexact, -⟩ := powers_exact_iff (x := -1) hy .bare
  have hpower : power.exact (-1 : Int64).toInt (4294967295 : Int64).toInt = -1 :=
    Odd.neg_one_pow (by decide)
  obtain ⟨n, rfl, hn⟩ := (hexact.2 (by decide)).answered (hpower ▸ by decide)
  exact ⟨hy, n, hn.trans hpower, hr⟩

/-- One more, and a power of 1 overflows. -/
theorem power_of_one_overflows :
    0 ≤ (4294967296 : Int64).toInt ∧
    (1 : Int64).toInt ^ (4294967296 : Int64).toInt.toNat = 1 ∧ Fits 1 ∧
    power.builtin.tryCall [.int 1, .int 4294967296] .bare =
      (fails .power .overflow, .bare) := by
  refine ⟨by decide, one_pow _, by decide, ?_⟩
  rw [tryCall_integers, onIntegers_of_refuses (takes_power (by decide))
    (refuses_power_iff.2 (by decide))]

/-! ## Remainders -/

/-- `n` is what the division of `x` by `y` leaves if the quotient is truncated toward zero. -/
structure IsRemainder (x y n : Int) : Prop where
  equation : n = x - y * x.tdiv y
  lt : n.natAbs < y.natAbs
  sign : n = 0 ∨ n.sign = x.sign

theorem isRemainder_tmod {x y : Int} (hy : y ≠ 0) : IsRemainder x y (x.tmod y) where
  equation := Int.tmod_def x y
  lt := by
    rw [Int.natAbs_tmod]
    exact Nat.mod_lt _ (by omega)
  sign := by
    by_cases hzero : x.tmod y = 0
    · exact .inl hzero
    · right
      rcases Int.lt_trichotomy x 0 with hx | rfl | hx
      · have hle : 0 ≤ (-x).tmod y := Int.tmod_nonneg y (by omega)
        rw [Int.neg_tmod] at hle
        rw [Int.sign_eq_neg_one_of_neg hx, Int.sign_eq_neg_one_of_neg (by omega)]
      · exact absurd (Int.zero_tmod y) hzero
      · have hle : 0 ≤ x.tmod y := Int.tmod_nonneg y (by omega)
        rw [Int.sign_eq_one_of_pos hx, Int.sign_eq_one_of_pos (by omega)]

theorem takes_remainder (hy : y.toInt ≠ 0) : remainder.Takes y.toInt :=
  ⟨fun _ => hy, fun h => (nomatch h)⟩

theorem refuses_remainder_iff :
    remainder.Refuses x.toInt y.toInt ↔ x.toInt = -2 ^ 63 ∧ y.toInt = -1 := by
  rw [← not_fits_tdiv_iff (fits_toInt x)]
  constructor
  · rintro (⟨-, h⟩ | ⟨h, -⟩)
    · exact h
    · cases h
  · exact fun h => .inl ⟨rfl, h⟩

/-- The remainder by a divisor that is not zero: the call answers it, unless the least integer is
divided by -1. That call, and no other, overflows. -/
theorem remainders_exact_iff (hy : y.toInt ≠ 0) (w : World) :
    Builtin.lookup? "mod" = some remainder.builtin ∧
    ∃ r, remainder.builtin.tryCall [.int x, .int y] w = (r, w) ∧
      ((∃ n : Int64, r = .ok (.int n) ∧ IsRemainder x.toInt y.toInt n.toInt) ↔
        ¬ (x.toInt = -2 ^ 63 ∧ y.toInt = -1)) ∧
      (r = fails .remainder .overflow ↔ x.toInt = -2 ^ 63 ∧ y.toInt = -1) := by
  have ht := takes_remainder hy
  have hfits : Fits (remainder.exact x.toInt y.toInt) := fits_tmod (fits_toInt y) hy
  refine ⟨rfl, _, tryCall_integers .remainder x y w, ?_⟩
  by_cases hrefuses : remainder.Refuses x.toInt y.toInt
  · have hleast := refuses_remainder_iff.1 hrefuses
    rw [onIntegers_of_refuses ht hrefuses]
    refine ⟨iff_of_false ?_ fun h => h hleast, iff_of_true rfl hleast⟩
    rintro ⟨n, h, -⟩
    exact fails_ne_ok h
  · have hleast := mt refuses_remainder_iff.2 hrefuses
    have hexact := (exact_iff ht [.int x, .int y]).2 fun h => hrefuses h.1
    refine ⟨iff_of_true ?_ hleast, iff_of_false (fun h => hexact.overflow.1 h hfits) hleast⟩
    obtain ⟨n, hr, hn⟩ := hexact.answered hfits
    exact ⟨n, hr, hn ▸ isRemainder_tmod hy⟩

/-- The least integer by any other divisor leaves a remainder with its own sign. -/
theorem remainders_exact_leastByThree :
    (3 : Int64).toInt ≠ 0 ∧
    ∃ n : Int64, remainder.builtin.tryCall [.int Int64.minValue, .int 3] .bare =
      (.ok (.int n), .bare) ∧ IsRemainder (-2 ^ 63) 3 n.toInt ∧ n.toInt = -2 := by
  have hy : (3 : Int64).toInt ≠ 0 := by decide
  obtain ⟨-, r, hr, hexact, -⟩ := remainders_exact_iff (x := Int64.minValue) hy .bare
  obtain ⟨n, rfl, hn⟩ := hexact.2 (by decide)
  exact ⟨hy, n, hr, hn, hn.equation⟩

/-- The least integer is a multiple of -1, so nothing is left, yet the call overflows. -/
theorem remainder_of_least_overflows :
    (-1 : Int64).toInt ≠ 0 ∧ IsRemainder Int64.minValue.toInt (-1 : Int64).toInt 0 ∧
    remainder.builtin.tryCall [.int Int64.minValue, .int (-1)] .bare =
      (fails .remainder .overflow, .bare) := by
  refine ⟨by decide, ⟨by decide, by decide, .inl rfl⟩, ?_⟩
  rw [tryCall_integers, onIntegers_of_refuses (takes_remainder (by decide))
    (refuses_remainder_iff.2 (by decide))]

end Arithmetic

end ScriptValues
