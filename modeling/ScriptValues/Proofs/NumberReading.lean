import ScriptValues.Operations.Computation
import ScriptValues.Proofs.NamedCalls
import ScriptValues.Proofs.NearestDoubles
import ScriptValues.Proofs.Numerals
import ScriptValues.Proofs.NumbersReturn

/-!
# Reading numbers from texts

`ToNumber` strips a text and reads what is left: a whole number that fits is an integer, any other
numeral is the double nearest to what it denotes, and all else is refused with the text as it was
given. `ToInt` reads a text the same way and truncates a double, so that it agrees with reading a
number first.

* `Meaning.isDouble_iff`: the one double that a numeral stands for.
* `Conversions.numeralLaws`: what `ToNumber` makes of every text.
* `Conversions.toInt_after_toNumber`: `ToInt` fails like `ToNumber`, and else depends on the number
  that `ToNumber` makes.
-/

namespace ScriptValues

/-! ## The double of a numeral -/

namespace Double

variable {negative : Bool} {n : Nat} {k : Int} {x : Float}

/-- Cutting off far from the range of doubles is no different from rounding. -/
theorem ofDecimal_eq_nearest (negative : Bool) (n : Nat) (k : Int) :
    ofDecimal negative n k =
      nearest negative (decimalQuotient n k).1 (decimalQuotient n k).2 := by
  have hd := decimalQuotient_pos n k
  have hinf : infinityBits = 2047 * 2 ^ 52 := rfl
  unfold ofDecimal
  simp only
  split
  · next hcut =>
    have hlow : 2 * (decimalQuotient n k).1 < (decimalQuotient n k).2 := by
      simp only [Bool.or_eq_true, decide_eq_true_eq] at hcut
      rcases hcut with rfl | hcut
      · rw [decimalQuotient_zero]
        exact hd
      · exact lt_of_cut_low hcut
    have hzero : nearestMagnitude (decimalQuotient n k).1 (decimalQuotient n k).2 ≤ 0 := by
      rw [nearestMagnitude_le_iff hd (by omega)]
      left
      rw [show halfway 0 = 1 by decide +kernel]
      omega
    rw [nearest, Nat.le_zero.1 hzero, Nat.add_zero]
  · next hcut =>
    split
    · next hhigh =>
      have hn : 0 < n := by
        simp only [Bool.or_eq_true, decide_eq_true_eq, not_or] at hcut
        omega
      have hlarge := le_of_cut_high hn hhigh
      have hle := nearestMagnitude_le_infinityBits (decimalQuotient n k).1 (decimalQuotient n k).2
      have hlast : halfway (infinityBits - 1) < 2 * twoTo 2098 := by decide +kernel
      have hmul : halfway (infinityBits - 1) * (decimalQuotient n k).2 <
          2 * twoTo 2098 * (decimalQuotient n k).2 := Nat.mul_lt_mul_of_pos_right hlast hd
      have hnot : ¬ nearestMagnitude (decimalQuotient n k).1 (decimalQuotient n k).2 ≤
          infinityBits - 1 := by
        rw [nearestMagnitude_le_iff hd (by omega)]
        unfold BelowHalf
        rw [Nat.mul_assoc] at hmul
        omega
      rw [nearest, show nearestMagnitude (decimalQuotient n k).1 (decimalQuotient n k).2 =
        infinityBits by omega]
    · cases k with
      | ofNat e => rfl
      | negSucc e => rfl

/-- The units of a decimal are those of `n · 10 ^ k`. -/
theorem cast_decimalQuotient (n : Nat) (k : Int) :
    ((decimalQuotient n k).1 : ℚ) / ((decimalQuotient n k).2 * 2 ^ 1074) = n * 10 ^ k := by
  have hunits : (unitsPerOne : ℚ) = 2 ^ 1074 := cast_twoTo 1074
  have hten (e : Nat) : (tenTo e : ℚ) = 10 ^ e := Nat.cast_pow 10 e
  have hpow : (0 : ℚ) < 2 ^ 1074 := by positivity
  cases k with
  | ofNat e =>
    simp only [decimalQuotient, Nat.cast_mul, hunits, hten, Nat.cast_one, one_mul,
      Int.ofNat_eq_natCast, zpow_natCast]
    generalize (2 : ℚ) ^ 1074 = units at hpow
    field_simp
  | negSucc e =>
    simp only [decimalQuotient, Nat.cast_mul, hunits, hten, zpow_negSucc]
    generalize (2 : ℚ) ^ 1074 = units at hpow
    field_simp

theorem cast_signed (negative : Bool) (n : Nat) :
    ((signed negative n : ℤ) : ℚ) = (signed negative 1 : ℤ) * n := by
  rw [← cast_signed_mul, Nat.one_mul]

/-- The double of a decimal is the nearest one, and has its sign. -/
theorem roundsTo_ofDecimal (negative : Bool) (n : Nat) (k : Int) :
    RoundsTo ((signed negative n : ℤ) * 10 ^ k) (ofDecimal negative n k) ∧
      isNegative (ofDecimal negative n k) = negative := by
  have hd := decimalQuotient_pos n k
  rw [ofDecimal_eq_nearest]
  constructor
  · have hnearest := roundsTo_nearest negative (decimalQuotient n k).1 hd
    rw [cast_signed, mul_div_assoc, cast_decimalQuotient, ← mul_assoc, ← cast_signed] at hnearest
    exact hnearest
  · exact isNegative_ofBits negative (nearestMagnitude_le_infinityBits _ _)

/-- NaN has one bit pattern. -/
theorem toBitVec_of_nan (h : decode x = .nan) :
    x.toBits.toBitVec = Float.Model.UnpackedFloat.packedNaN .binary64 := by
  have h52 : twoTo 52 = 2 ^ 52 := rfl
  have hfields : x.toBits.toNat / 2 ^ 52 % 2048 = 2047 ∧ x.toBits.toNat % 2 ^ 52 ≠ 0 := by
    unfold decode decodeBits at h
    simp only [h52] at h
    split at h
    · next hexponent =>
      split at h
      · cases h
      · next hfraction => exact ⟨hexponent, hfraction⟩
    · split at h
      · cases h
      · cases h
  apply x.toModel.valid.eq_packedNaN
  · apply BitVec.eq_of_toNat_eq
    exact (toNat_unpackExponent x.toBits.toBitVec).trans hfields.1
  · intro hzero
    have hmantissa := toNat_unpackMantissa x.toBits.toBitVec
    exact hfields.2 (hmantissa.symm.trans (congrArg BitVec.toNat hzero))

theorem eq_notANumber (h : decode x = .nan) : x = notANumber := by
  have hbits := (toBitVec_of_nan h).trans (toBitVec_of_nan decode_notANumber).symm
  exact Float.toBits_inj.1 (UInt64.toBitVec_inj.1 hbits)

end Double

open Double

variable {d : Meaning} {x : Float}

/-- Which doubles a numeral may stand for: the nearest to a decimal, with its sign. -/
def Meaning.IsDouble : Meaning → Float → Prop
  | .nan, x => decode x = .nan
  | .infinite negative, x => decode x = .infinite negative
  | .decimal negative n k, x =>
    RoundsTo ((signed negative n : ℤ) * 10 ^ k) x ∧ isNegative x = negative

/-- There is exactly one, and it is the one that is read. -/
theorem Meaning.isDouble_iff : d.IsDouble x ↔ d.double = x := by
  cases d with
  | nan =>
    constructor
    · intro h
      exact (eq_notANumber h).symm
    · rintro rfl
      exact decode_notANumber
  | infinite negative =>
    constructor
    · intro h
      exact (eq_ofBits_of_infinite h).symm
    · rintro rfl
      exact (decode_ofBits_eq_infinite negative (Nat.le_refl _)).2 rfl
  | decimal negative n k =>
    obtain ⟨hrounds, hsign⟩ := roundsTo_ofDecimal negative n k
    constructor
    · rintro ⟨hx, hnegative⟩
      exact hrounds.unique hx (hsign.trans hnegative.symm)
    · rintro rfl
      exact ⟨hrounds, hsign⟩

/-- From half a step above the largest double on, a decimal stands for an infinity. -/
theorem Meaning.IsDouble.infinite_iff {negative : Bool} {n : Nat} {k : Int}
    (h : (Meaning.decimal negative n k).IsDouble x) :
    decode x = .infinite negative ↔ (2 ^ 1024 - 2 ^ 970 : ℚ) ≤ n * 10 ^ k := by
  obtain rfl := Meaning.isDouble_iff.1 h
  show decode (ofDecimal negative n k) = _ ↔ _
  rw [ofDecimal_eq_nearest, decode_nearest_eq_infinite negative _ (decimalQuotient_pos n k),
    cast_decimalQuotient]

/-- Up to half of the smallest positive double, it stands for a zero. -/
theorem Meaning.IsDouble.zero_iff {negative : Bool} {n : Nat} {k : Int}
    (h : (Meaning.decimal negative n k).IsDouble x) :
    isZero x ↔ (n * 10 ^ k : ℚ) ≤ 1 / 2 ^ 1075 := by
  obtain rfl := Meaning.isDouble_iff.1 h
  show isZero (ofDecimal negative n k) ↔ _
  rw [ofDecimal_eq_nearest, isZero_nearest negative _ (decimalQuotient_pos n k),
    cast_decimalQuotient]

namespace Conversions

open Builtin

variable {s : String} {v m : Value} {r : Result Value}

/-! ## What is read from a text -/

/-- The reader of numbers tries the reader of integers first. -/
theorem readNumber_eq_some : readNumber? s = some v ↔
    (∃ a, readInteger? (stripBlanks s.toList) = some a ∧ v = .int a) ∨
      readInteger? (stripBlanks s.toList) = none ∧
        ∃ x, readDouble? (stripBlanks s.toList) = some x ∧ v = .float x := by
  unfold readNumber?
  simp only
  cases readInteger? (stripBlanks s.toList) with
  | some a => simp [eq_comm]
  | none => simp [eq_comm]

theorem readInteger_eq_none {cs : List Char} :
    readInteger? cs = none ↔ ∀ a : Int64, ¬ Whole cs a.toInt := by
  simp only [Option.eq_none_iff_forall_ne_some, ne_eq, readInteger_eq_some]

theorem readNumber_eq_int {a : Int64} :
    readNumber? s = some (.int a) ↔ Whole (stripBlanks s.toList) a.toInt := by
  simp [readNumber_eq_some, readInteger_eq_some]

theorem readNumber_eq_float : readNumber? s = some (.float x) ↔
    (∀ a : Int64, ¬ Whole (stripBlanks s.toList) a.toInt) ∧
      ∃ d, Numeral (stripBlanks s.toList) d ∧ d.IsDouble x := by
  simp [readNumber_eq_some, readInteger_eq_none, readDouble_eq_some, Meaning.isDouble_iff]

theorem exists_readNumber_float : (∃ x, readNumber? s = some (.float x)) ↔
    (∀ a : Int64, ¬ Whole (stripBlanks s.toList) a.toInt) ∧
      ∃ d, Numeral (stripBlanks s.toList) d := by
  simp only [readNumber_eq_float, Meaning.isDouble_iff]
  constructor
  · rintro ⟨x, hwhole, d, hd, -⟩
    exact ⟨hwhole, d, hd⟩
  · rintro ⟨hwhole, d, hd⟩
    exact ⟨d.double, hwhole, d, hd, rfl⟩

/-- A text is read as an integer or as a double, if it is read at all. -/
theorem readNumber_cases (s : String) : readNumber? s = none ∨
    (∃ a, readNumber? s = some (.int a)) ∨ ∃ x, readNumber? s = some (.float x) := by
  cases h : readNumber? s with
  | none => exact .inl rfl
  | some v =>
    rcases readNumber_eq_some.1 h with ⟨a, -, rfl⟩ | ⟨-, x, -, rfl⟩
    · exact .inr (.inl ⟨a, rfl⟩)
    · exact .inr (.inr ⟨x, rfl⟩)

theorem readNumber_eq_none : readNumber? s = none ↔
    (∀ a : Int64, ¬ Whole (stripBlanks s.toList) a.toInt) ∧
      ∀ d, ¬ Numeral (stripBlanks s.toList) d := by
  constructor
  · intro h
    have hwhole (a : Int64) : ¬ Whole (stripBlanks s.toList) a.toInt := by
      rw [← readNumber_eq_int, h]
      exact nofun
    refine ⟨hwhole, fun d hd => ?_⟩
    obtain ⟨x, hx⟩ := exists_readNumber_float.2 ⟨hwhole, d, hd⟩
    rw [h] at hx
    cases hx
  · rintro ⟨hwhole, hnumeral⟩
    rcases readNumber_cases s with hnone | ⟨a, ha⟩ | hfloat
    · exact hnone
    · exact absurd (readNumber_eq_int.1 ha) (hwhole a)
    · obtain ⟨d, hd⟩ := (exists_readNumber_float.1 hfloat).2
      exact absurd hd (hnumeral d)

/-! ## The builtins -/

/-- A text is refused with the whole text as it was given. -/
def refusal (name s target : String) : Result Value := .error (.failure ⟨name, .parse s target⟩)

theorem toNumber_string (s : String) : toNumber ⟨"ToNumber", [.string s]⟩ =
    ((readNumber? s).map Except.ok).getD (refusal "ToNumber" s "a number") := by
  have hvalue : Arguments.value ⟨"ToNumber", [.string s]⟩ 0 = .ok (.string s) := rfl
  simp only [toNumber, hvalue, Result.ok_bind]
  cases readNumber? s with
  | none => rfl
  | some v => rfl

theorem gives_toNumber (v : Value) : Gives "ToNumber" [v] (toNumber ⟨"ToNumber", [v]⟩) := by
  have hname : lookup? "ToNumber" = some ⟨"ToNumber", .compute .toNumber⟩ := by decide +kernel
  exact gives_of_run hname rfl fun _ => rfl

theorem gives_toInt (v : Value) : Gives "ToInt" [v] (toInt ⟨"ToInt", [v]⟩) := by
  have hname : lookup? "ToInt" = some ⟨"ToInt", .compute .toInt⟩ := by decide +kernel
  exact gives_of_run hname rfl fun _ => rfl

theorem gives_toNumber_iff : Gives "ToNumber" [v] r ↔ toNumber ⟨"ToNumber", [v]⟩ = r := by
  constructor
  · exact (gives_toNumber v).unique
  · rintro rfl
    exact gives_toNumber v

theorem gives_toInt_iff : Gives "ToInt" [v] r ↔ toInt ⟨"ToInt", [v]⟩ = r := by
  constructor
  · exact (gives_toInt v).unique
  · rintro rfl
    exact gives_toInt v

/-- A text is answered with what is read from it. -/
theorem gives_toNumber_ok : Gives "ToNumber" [.string s] (.ok v) ↔ readNumber? s = some v := by
  rw [gives_toNumber_iff, toNumber_string]
  cases readNumber? s with
  | none => simp [refusal]
  | some u => simp

theorem gives_toNumber_refusal :
    Gives "ToNumber" [.string s] (refusal "ToNumber" s "a number") ↔ readNumber? s = none := by
  rw [gives_toNumber_iff, toNumber_string]
  cases readNumber? s with
  | none => simp
  | some u => simp [refusal]

/-- What `ToNumber` makes of a text that is `ts` without the blanks at its ends. -/
structure ReadsNumber (s : String) (ts : List Char) : Prop where
  /-- A whole number that fits is an integer. -/
  integer (a : Int64) : Gives "ToNumber" [.string s] (.ok (.int a)) ↔ Whole ts a.toInt
  /-- Any other numeral is the double that it stands for. -/
  double (x : Float) : Gives "ToNumber" [.string s] (.ok (.float x)) ↔
    (∀ a : Int64, ¬ Whole ts a.toInt) ∧ ∃ d, Numeral ts d ∧ d.IsDouble x
  /-- There is such a double. -/
  accepted : (∃ x, Gives "ToNumber" [.string s] (.ok (.float x))) ↔
    (∀ a : Int64, ¬ Whole ts a.toInt) ∧ ∃ d, Numeral ts d
  /-- All else is refused with the text before it was stripped. -/
  refused : Gives "ToNumber" [.string s] (refusal "ToNumber" s "a number") ↔
    (∀ a : Int64, ¬ Whole ts a.toInt) ∧ ∀ d, ¬ Numeral ts d

theorem readsNumber (s : String) : ReadsNumber s (stripBlanks s.toList) where
  integer := by
    intro a
    rw [gives_toNumber_ok, readNumber_eq_int]
  double := by
    intro x
    rw [gives_toNumber_ok, readNumber_eq_float]
  accepted := by
    simp only [gives_toNumber_ok]
    exact exists_readNumber_float
  refused := by
    rw [gives_toNumber_refusal, readNumber_eq_none]

structure NumeralLaws : Prop where
  /-- Every text is stripped in one way, and what is left decides. -/
  reads (s : String) : ∃ ts, (∀ us, Stripped s.toList us ↔ us = ts) ∧ ReadsNumber s ts
  /-- Texts that only differ in the blanks at their ends are read alike, or both refused. -/
  alone {s s' : String} {ts : List Char} : Stripped s.toList ts → Stripped s'.toList ts →
    (∃ v, Gives "ToNumber" [.string s] (.ok v) ∧ Gives "ToNumber" [.string s'] (.ok v)) ∨
      Gives "ToNumber" [.string s] (refusal "ToNumber" s "a number") ∧
        Gives "ToNumber" [.string s'] (refusal "ToNumber" s' "a number")
  /-- Above the range a decimal stands for the infinity of its sign: from half a step above the
  largest double on. -/
  infinite {negative : Bool} {n : Nat} {k : Int} {x : Float} :
    (Meaning.decimal negative n k).IsDouble x →
      (decode x = .infinite negative ↔ (2 ^ 1024 - 2 ^ 970 : ℚ) ≤ n * 10 ^ k)
  /-- Below the range it stands for the zero of its sign: up to half of the least positive
  double. -/
  zero {negative : Bool} {n : Nat} {k : Int} {x : Float} :
    (Meaning.decimal negative n k).IsDouble x →
      (isZero x ∧ isNegative x = negative ↔ (n * 10 ^ k : ℚ) ≤ 1 / 2 ^ 1075)

/-- Texts with the same part between the blanks are read as the same. -/
theorem readNumber_of_stripped {s s' : String} (h : stripBlanks s.toList = stripBlanks s'.toList) :
    readNumber? s = readNumber? s' := by
  unfold readNumber?
  rw [h]

theorem numeralLaws : NumeralLaws where
  reads := by
    intro s
    refine ⟨stripBlanks s.toList, fun us => ?_, readsNumber s⟩
    rw [stripped_iff]
    exact eq_comm
  alone := by
    intro s s' ts hs hs'
    have hread := readNumber_of_stripped ((stripped_iff.1 hs).trans (stripped_iff.1 hs').symm)
    cases hv : readNumber? s with
    | some v =>
      left
      exact ⟨v, gives_toNumber_ok.2 hv, gives_toNumber_ok.2 (hread ▸ hv)⟩
    | none =>
      right
      exact ⟨gives_toNumber_refusal.2 hv, gives_toNumber_refusal.2 (hread ▸ hv)⟩
  infinite := Meaning.IsDouble.infinite_iff
  zero := by
    intro negative n k x h
    rw [← h.zero_iff]
    exact and_iff_left h.2

/-- One more than the largest integer is read as a double. -/
example : readNumber? " 9223372036854775808 " =
    some (.float (ofDecimal false 9223372036854775808 0)) := by rfl

/-! ## `ToInt` after `ToNumber` -/

/-- `ToInt` reads a text as `ToNumber` does, and goes on with the number. -/
theorem toInt_string (s : String) : toInt ⟨"ToInt", [.string s]⟩ =
    ((readNumber? s).map fun m => toInt ⟨"ToInt", [m]⟩).getD (refusal "ToInt" s "an integer") := by
  have hvalue : Arguments.value ⟨"ToInt", [.string s]⟩ 0 = .ok (.string s) := rfl
  simp only [toInt, hvalue, Result.ok_bind, readNumber?]
  cases readInteger? (stripBlanks s.toList) with
  | some a => rfl
  | none =>
    cases readDouble? (stripBlanks s.toList) with
    | none => rfl
    | some x =>
      show Arithmetic.orOverflow _ _ = Arithmetic.orOverflow _ _
      cases (integral? .towardZero x).bind Checked.ofInt? with
      | none => rfl
      | some a => rfl

/-- Numbers are truncated or overflow. -/
theorem toInt_of_isNumeric (hm : m.isNumeric) : (∃ a, toInt ⟨"ToInt", [m]⟩ = .ok (.int a)) ∨
    toInt ⟨"ToInt", [m]⟩ = .error (.failure ⟨"ToInt", .overflow⟩) := by
  cases m with
  | int a => exact .inl ⟨a, rfl⟩
  | float x =>
    show (∃ a, Arithmetic.orOverflow _ ((integral? .towardZero x).bind Checked.ofInt?) = _) ∨
      Arithmetic.orOverflow _ ((integral? .towardZero x).bind Checked.ofInt?) = _
    cases (integral? .towardZero x).bind Checked.ofInt? with
    | none => exact .inr rfl
    | some a => exact .inl ⟨a, rfl⟩
  | _ => cases hm

/-- `ToInt` fails for the same arguments as `ToNumber`, and alike, and else it gives what it gives
for the number. -/
structure AfterToNumber (v : Value) : Prop where
  /-- Nothing but a number, a type failure or a refused text comes of `ToNumber`. -/
  cases : (∃ m : Value, m.isNumeric ∧ Gives "ToNumber" [v] (.ok m)) ∨
    (∃ position expected actual, Gives "ToNumber" [v]
      (.error (.failure ⟨"ToNumber", .type position expected actual⟩))) ∨
    ∃ s target, Gives "ToNumber" [v] (refusal "ToNumber" s target)
  type (position : Nat) (expected : Expectation) (actual : Kind) :
    Gives "ToNumber" [v] (.error (.failure ⟨"ToNumber", .type position expected actual⟩)) ↔
      Gives "ToInt" [v] (.error (.failure ⟨"ToInt", .type position expected actual⟩))
  parse (s : String) : (∃ target, Gives "ToNumber" [v] (refusal "ToNumber" s target)) ↔
    ∃ target, Gives "ToInt" [v] (refusal "ToInt" s target)
  number (m : Value) (r : Result Value) : Gives "ToNumber" [v] (.ok m) →
    (Gives "ToInt" [v] r ↔ Gives "ToInt" [m] r)

theorem afterToNumber_of_number (hm : m.isNumeric)
    (hnumber : toNumber ⟨"ToNumber", [v]⟩ = .ok m)
    (hint : toInt ⟨"ToInt", [v]⟩ = toInt ⟨"ToInt", [m]⟩) : AfterToNumber v := by
  constructor
  · exact .inl ⟨m, hm, gives_toNumber_iff.2 hnumber⟩
  · intro position expected actual
    rw [gives_toNumber_iff, gives_toInt_iff, hnumber, hint]
    rcases toInt_of_isNumeric hm with ⟨a, ha⟩ | hoverflow
    · simp [ha]
    · simp [hoverflow]
  · intro s
    simp only [gives_toNumber_iff, gives_toInt_iff, hnumber, hint]
    rcases toInt_of_isNumeric hm with ⟨a, ha⟩ | hoverflow
    · simp [ha, refusal]
    · simp [hoverflow, refusal]
  · intro m' r hm'
    rw [gives_toNumber_iff, hnumber] at hm'
    obtain rfl := Except.ok.inj hm'
    rw [gives_toInt_iff, gives_toInt_iff, hint]

/-- The causes of the two failures: what a refused text was to be is all that may differ. -/
inductive SameCause : Cause → Cause → Prop where
  | type (position : Nat) (expected : Expectation) (actual : Kind) :
      SameCause (.type position expected actual) (.type position expected actual)
  | parse (s target target' : String) : SameCause (.parse s target) (.parse s target')

theorem afterToNumber_of_failure {cause cause' : Cause} (hsame : SameCause cause cause')
    (hnumber : toNumber ⟨"ToNumber", [v]⟩ = .error (.failure ⟨"ToNumber", cause⟩))
    (hint : toInt ⟨"ToInt", [v]⟩ = .error (.failure ⟨"ToInt", cause'⟩)) : AfterToNumber v := by
  constructor
  · right
    cases hsame with
    | type => exact .inl ⟨_, _, _, gives_toNumber_iff.2 hnumber⟩
    | parse => exact .inr ⟨_, _, gives_toNumber_iff.2 hnumber⟩
  · intro position expected actual
    rw [gives_toNumber_iff, gives_toInt_iff, hnumber, hint]
    cases hsame <;> simp
  · intro s
    simp only [gives_toNumber_iff, gives_toInt_iff, hnumber, hint, refusal]
    cases hsame <;> simp
  · intro m r hm
    rw [gives_toNumber_iff, hnumber] at hm
    cases hm

theorem toInt_after_toNumber (v : Value) : AfterToNumber v := by
  cases v with
  | int a => exact afterToNumber_of_number (m := .int a) rfl rfl rfl
  | float x => exact afterToNumber_of_number (m := .float x) rfl rfl rfl
  | bool b => exact afterToNumber_of_number (m := .int (ofBool b)) rfl rfl rfl
  | string s =>
    have hnumber := toNumber_string s
    have hint := toInt_string s
    rcases readNumber_cases s with hread | ⟨a, hread⟩ | ⟨x, hread⟩
    · rw [hread] at hnumber hint
      exact afterToNumber_of_failure (.parse ..) hnumber hint
    · rw [hread] at hnumber hint
      exact afterToNumber_of_number rfl hnumber hint
    · rw [hread] at hnumber hint
      exact afterToNumber_of_number rfl hnumber hint
  | _ => exact afterToNumber_of_failure (.type ..) rfl rfl

end Conversions

end ScriptValues
