import ScriptValues.Proofs.Promotion

/-!
# The order of numbers

A double has a place on a line, and doubles are compared by their places. The places keep the order
of the numbers that doubles stand for, with the infinities further out than all others. NaN stands
for no number, has no place, and is comparable to nothing.

* `Double.le_iff_of_mark`: comparing doubles is comparing the numbers they stand for.
* `Value.number?`: the number of a numeric value, which only NaN lacks.
* `Arithmetic.atMost_iff`: comparing numbers of one kind is comparing their values.
-/

namespace ScriptValues

namespace Double

variable {negative other : Bool} {m k : Nat} {x y : Float} {p q : ℚ}

/-! ## Doubles that are not a number -/

def IsNaN (x : Float) : Prop := decode x = .nan

theorem place_eq_none_iff : place? x = none ↔ IsNaN x := by
  unfold place? units? IsNaN
  cases decode x with
  | nan => simp only
  | infinite negative => simp only [reduceCtorEq]
  | finite negative significand scale => simp only [reduceCtorEq]

theorem mark_eq_none_iff : mark? x = none ↔ IsNaN x := by
  unfold mark? value? IsNaN
  cases decode x with
  | nan => simp
  | infinite negative => simp
  | finite negative significand scale => simp

/-- NaN is at most nothing, and nothing is at most NaN. -/
theorem le_eq_false_of_isNaN (h : IsNaN x ∨ IsNaN y) : le x y = false := by
  unfold le
  rcases h with hx | hy
  · rw [place_eq_none_iff.2 hx]
  · rw [place_eq_none_iff.2 hy]
    cases place? x with
    | none => rfl
    | some a => rfl

/-- The double of an integer is a number. -/
theorem not_isNaN_ofInt {i : ℤ} (h : i.natAbs ≤ 2 ^ 63) : ¬ IsNaN (ofInt i) := by
  intro hnan
  have hplace := place_ofInt h
  rw [place_eq_none_iff.2 hnan] at hplace
  cases hplace

/-! ## Places in order -/

/-- How far out the place of a magnitude is: at its rung, and infinity beyond all of them. -/
def distance (m : Nat) : Nat := if m = infinityBits then twoTo 2100 else rung m

theorem distance_zero : distance 0 = 0 := by
  unfold distance
  rw [if_neg (by decide), rung_zero]

theorem distance_le_iff (hm : m ≤ infinityBits) (hk : k ≤ infinityBits) :
    distance m ≤ distance k ↔ m ≤ k := by
  have hlast : rung infinityBits < twoTo 2100 := by decide +kernel
  have hle {j : Nat} (hj : j ≤ infinityBits) : rung j ≤ rung infinityBits :=
    rung_strictMono.monotone hj
  have hrung : rung m ≤ rung k ↔ m ≤ k := rung_strictMono.le_iff_le
  have hlow := hle hm
  have hlow' := hle hk
  unfold distance
  -- as numbers the two ends are too large to compute with
  generalize twoTo 2100 = outside at *
  generalize rung infinityBits = last at *
  split
  · split
    · omega
    · omega
  · split
    · omega
    · exact hrung

theorem place_of_infinite (h : decode x = .infinite negative) :
    place? x = some (signed negative (twoTo 2100)) := by
  unfold place? signed
  simp only [h]

theorem place_ofBits (negative : Bool) (h : m ≤ infinityBits) :
    place? (ofBits (signBits negative + m)) = some (signed negative (distance m)) := by
  have hdecode := decode_magnitude negative h
  unfold distance
  by_cases hinf : m = infinityBits
  · rw [hinf, decodeBits_infinityBits] at hdecode
    rw [if_pos hinf, hinf]
    exact place_of_infinite hdecode
  · have hlt : m < infinityBits := Nat.lt_of_le_of_ne h hinf
    rw [decodeBits_of_lt negative hlt] at hdecode
    rw [if_neg hinf, place_of_finite hdecode, units_ofBits negative hlt]

/-- Distances from zero that grow with the magnitude put the numbers of both signs in one order. -/
theorem signed_le_signed_iff {f : Nat → Nat} (hzero : f 0 = 0)
    (hmono : ∀ {i j}, i ≤ infinityBits → j ≤ infinityBits → (f i ≤ f j ↔ i ≤ j))
    (hm : m ≤ infinityBits) (hk : k ≤ infinityBits) :
    signed negative (f m) ≤ signed other (f k) ↔ signed negative m ≤ signed other k := by
  have hforth := hmono hm hk
  have hback := hmono hk hm
  have hmzero := hmono hm (Nat.zero_le _)
  have hkzero := hmono hk (Nat.zero_le _)
  rw [hzero] at hmzero hkzero
  unfold signed
  cases negative with
  | false =>
    cases other with
    | false => simpa using hforth
    | true =>
      simp only [Bool.false_eq_true, if_true, if_false]
      omega
  | true =>
    cases other with
    | false =>
      simp only [Bool.false_eq_true, if_true, if_false]
      omega
    | true =>
      simp only [if_true]
      omega

theorem rungValue_le_iff (hm : m ≤ infinityBits) (hk : k ≤ infinityBits) :
    rungValue negative m ≤ rungValue other k ↔ signed negative m ≤ signed other k := by
  have hpos : (0 : ℚ) < 2 ^ 1074 := by positivity
  unfold rungValue
  rw [div_le_div_iff_of_pos_right hpos, Int.cast_le]
  exact signed_le_signed_iff rung_zero (fun _ _ => rung_strictMono.le_iff_le) hm hk

/-- Doubles are compared as the numbers that they stand for. -/
theorem le_iff_of_mark (hx : mark? x = some p) (hy : mark? y = some q) : le x y ↔ p ≤ q := by
  obtain ⟨negative, m, hm, rfl⟩ := exists_bits hx
  obtain ⟨other, k, hk, rfl⟩ := exists_bits hy
  rw [mark_ofBits negative hm] at hx
  rw [mark_ofBits other hk] at hy
  obtain rfl := Option.some.inj hx
  obtain rfl := Option.some.inj hy
  rw [le_iff_of_place (place_ofBits negative hm) (place_ofBits other hk), rungValue_le_iff hm hk]
  exact signed_le_signed_iff distance_zero distance_le_iff hm hk

end Double

/-! ## Numeric values -/

namespace Value

/-- The number of a numeric value: an integer itself, a double what it stands for. -/
def number? : Value → Option ℚ
  | .int n => some (n.toInt : ℚ)
  | .float x => Double.mark? x
  | _ => none

def IsNaN (v : Value) : Prop := ∃ x, v = .float x ∧ Double.IsNaN x

@[simp]
theorem isNaN_float {x : Float} : (float x).IsNaN ↔ Double.IsNaN x := by
  simp [IsNaN]

@[simp]
theorem not_isNaN_int (n : Int64) : ¬ (int n).IsNaN := by
  simp [IsNaN]

theorem exists_float {v : Value} (h : v.kind = .float) : ∃ x, v = .float x := by
  cases v with
  | float x => exact ⟨x, rfl⟩
  | _ => cases h

/-- A numeric value has a number, unless it is NaN. -/
theorem exists_number {v : Value} (h : v.isNumeric) (hnan : ¬ v.IsNaN) :
    ∃ q, v.number? = some q := by
  cases v with
  | int n => exact ⟨_, rfl⟩
  | float x =>
    rw [isNaN_float, ← Double.mark_eq_none_iff] at hnan
    exact Option.ne_none_iff_exists'.1 hnan
  | _ => cases h

theorem number_of_isNaN {v : Value} (h : v.IsNaN) : v.number? = none := by
  obtain ⟨x, rfl, hx⟩ := h
  exact Double.mark_eq_none_iff.2 hx

end Value

namespace Arithmetic

variable {v w : Value} {p q : ℚ}

/-- Two numbers of one kind are compared by their values. -/
theorem atMost_iff (hkind : v.kind = w.kind) (hv : v.number? = some p) (hw : w.number? = some q) :
    atMost v w ↔ p ≤ q := by
  cases v with
  | int m =>
    cases w with
    | int n =>
      obtain rfl := Option.some.inj hv
      obtain rfl := Option.some.inj hw
      rw [Int.cast_le, ← Int64.le_iff_toInt_le]
      exact decide_eq_true_iff
    | _ => cases hkind
  | float x =>
    cases w with
    | float y => exact Double.le_iff_of_mark hv hw
    | _ => cases hkind
  | _ => cases hv

/-- No double is at most NaN, and NaN is at most none. -/
theorem atMost_of_isNaN (hkind : v.kind = w.kind) (h : v.IsNaN ∨ w.IsNaN) :
    atMost v w = false := by
  have hfloat : v.kind = .float := by
    rcases h with ⟨x, rfl, -⟩ | ⟨y, rfl, -⟩
    · rfl
    · exact hkind
  obtain ⟨x, rfl⟩ := Value.exists_float hfloat
  obtain ⟨y, rfl⟩ := Value.exists_float hkind.symm
  rw [Value.isNaN_float, Value.isNaN_float] at h
  exact Double.le_eq_false_of_isNaN h

end Arithmetic

end ScriptValues
