import ScriptValues.Proofs.Calls
import ScriptValues.Proofs.NumberTexts

/-!
# Numbers come back from their texts

What `ToString` makes of a number is read by `ToNumber` as the same number: an integer as itself,
and a double as a value whose double has the same bits, be it a double or the integer that the text
of a large one denotes. `ToInt` reads the text of an integer as that integer.

* `Conversions.readNumber_integerText`: reading the text of an integer.
* `Conversions.Written`: how a double is written, with the shortest digits if it is not whole.
* `Conversions.exists_readNumber_text`: reading the text of a double.
* `Conversions.numbers_return`: the builtins.
-/

namespace ScriptValues

namespace Double

/-- `y` is the double `x`: it has the bits of `x`, or both are NaN. -/
structure Same (x y : Float) : Prop where
  bits : decode x ≠ .nan → y.toBits = x.toBits
  nan : decode x = .nan → decode y = .nan

end Double

namespace Conversions

open Double Shortest

variable {x : Float} {s : String} {cs : List Char} {negative : Bool} {n : Nat} {k : Int}

/-! ## Blanks -/

/-- The visible characters of ASCII are not blank. -/
theorem isBlank_eq_false {c : Char} (hlo : 0x21 ≤ c.toNat) (hhi : c.toNat < 0x85) :
    isBlank c = false := by
  unfold isBlank withinBounds blankBounds
  have h9 : 0x9 ≤ c.toNat := by omega
  have he : 0xe ≤ c.toNat := by omega
  have h20 : 0x20 ≤ c.toNat := by omega
  have h85 : ¬ 0x85 ≤ c.toNat := by omega
  simp [h9, he, h20, hlo, h85]

theorem stripBlanks_eq_self (h : ∀ c ∈ cs, isBlank c = false) : stripBlanks cs = cs := by
  have hfront : ∀ ds : List Char, (∀ c ∈ ds, isBlank c = false) → ds.dropWhile isBlank = ds := by
    intro ds hds
    cases ds with
    | nil => rfl
    | cons c rest => rw [List.dropWhile_cons_of_neg (by simp [hds c List.mem_cons_self])]
  unfold stripBlanks dropWhileEnd
  rw [hfront cs h, hfront cs.reverse fun c hc => h c (List.mem_reverse.1 hc), List.reverse_reverse]

theorem stripBlanks_of_spells (h : Spells cs n k) :
    stripBlanks (signChars negative ++ cs) = signChars negative ++ cs := by
  apply stripBlanks_eq_self
  intro c hc
  rcases List.mem_append.1 hc with hc | hc
  · cases negative with
    | false => cases hc
    | true =>
      rw [List.mem_singleton.1 hc]
      rfl
  · rcases h.mem hc with hdigit | rfl
    · obtain ⟨hlo, hhi⟩ := toNat_of_isDigit hdigit
      exact isBlank_eq_false (by omega) (by omega)
    · rfl

/-! ## Integers -/

theorem integerText_toList (i : Int64) : (integerText i).toList =
    signChars (decide (i.toInt < 0)) ++ Nat.toDigits 10 i.toInt.natAbs := by
  unfold integerText signChars
  rw [Int.repr_eq_if]
  by_cases hneg : i.toInt < 0
  · have habs : (-i.toInt).toNat = i.toInt.natAbs := by omega
    rw [if_neg (Int.not_le.2 hneg), decide_eq_true hneg, String.toList_append,
      Nat.repr_eq_ofList_toDigits, habs]
    simp
  · have habs : i.toInt.toNat = i.toInt.natAbs := by omega
    rw [if_pos (Int.not_lt.1 hneg), decide_eq_false hneg, Nat.repr_eq_ofList_toDigits,
      String.toList_ofList, habs]
    rfl

/-- The text of an integer has no blanks around it and is read as that integer. -/
theorem readInteger_integerText (i : Int64) :
    readInteger? (stripBlanks (integerText i).toList) = some i := by
  have hspells := Spells.whole Nat.toDigits_ne_nil (allDigits_toDigits i.toInt.natAbs)
  rw [integerText_toList, stripBlanks_of_spells hspells,
    readInteger_of_digits Nat.toDigits_ne_nil (allDigits_toDigits _), digitsValue_toDigits,
    signed_natAbs, Checked.ofInt_toInt]

theorem readNumber_integerText (i : Int64) : readNumber? (integerText i) = some (.int i) := by
  unfold readNumber?
  simp only [readInteger_integerText i]

/-! ## Doubles -/

/-- What is read as an integer is the number of a text. -/
theorem readNumber_of_integer {i : Int64} (h : Spells cs n k)
    (hs : s.toList = signChars negative ++ cs)
    (hread : readInteger? (signChars negative ++ cs) = some i) :
    readNumber? s = some (.int i) := by
  unfold readNumber?
  rw [hs, stripBlanks_of_spells h]
  simp only [hread]

/-- What is not read as an integer is read as the double nearest to the decimal. -/
theorem readNumber_of_no_integer (h : Spells cs n k) (hs : s.toList = signChars negative ++ cs)
    (hread : readInteger? (signChars negative ++ cs) = none) :
    readNumber? s = some (.float (ofDecimal negative n k)) := by
  unfold readNumber?
  rw [hs, stripBlanks_of_spells h]
  simp only [hread, readDouble_of_spells h, Option.map_some]

/-- A text that spells a decimal is read as its integer, or as the double nearest to it. -/
theorem readNumber_of_spells (h : Spells cs n k) (hs : s.toList = signChars negative ++ cs) :
    readNumber? s = some (.float (ofDecimal negative n k)) ∨
      k = 0 ∧ ∃ i : Int64, i.toInt = signed negative n ∧ readNumber? s = some (.int i) := by
  cases hread : readInteger? (signChars negative ++ cs) with
  | none => exact .inl (readNumber_of_no_integer h hs hread)
  | some i =>
    have hnumber := readNumber_of_integer h hs hread
    cases h with
    | whole hne hdigits =>
      rw [readInteger_of_digits hne hdigits] at hread
      exact .inr ⟨rfl, i, Checked.ofInt_eq_some.1 hread, hnumber⟩
    | point _ _ _ =>
      rw [readInteger_of_point (by simp)] at hread
      cases hread

def signText (negative : Bool) : String := if negative then "-" else ""

theorem text_of_nan (h : decode x = .nan) : Double.text x = "NaN" := by
  unfold Double.text
  rw [h]

theorem text_of_infinite (h : decode x = .infinite negative) :
    Double.text x = if negative then "-inf" else "inf" := by
  unfold Double.text
  rw [h]

theorem text_of_finite {significand scale : Nat}
    (h : decode x = .finite negative significand scale) :
    Double.text x = signText negative ++ magnitudeText significand scale := by
  unfold Double.text
  rw [h]
  rfl

/-- How a double is written. -/
inductive Written (x : Float) : String → Prop where
  | nan : decode x = .nan → Written x "NaN"
  | infinite {negative : Bool} : decode x = .infinite negative →
      Written x (if negative then "-inf" else "inf")
  /-- A whole double below the limit keeps one decimal place. -/
  | whole {negative : Bool} {significand scale n : Nat} :
      decode x = .finite negative significand scale →
      significand * twoTo scale = n * unitsPerOne → n < wholeLimit →
      Written x (signText negative ++ (n.repr ++ ".0"))
  /-- Any other finite double is the decimal on the coarsest grid that is read as it, without an
  exponent. -/
  | shortest {negative : Bool} {significand scale n : Nat} {k : Int} :
      decode x = .finite negative significand scale →
      (∀ m < wholeLimit, significand * twoTo scale ≠ m * unitsPerOne) →
      ofDecimal negative n k = x → (∀ m j, k < j → ofDecimal negative m j ≠ x) →
      Written x (signText negative ++ positional n k)

theorem written_text (x : Float) : Written x (Double.text x) := by
  unfold Double.text
  cases h : decode x with
  | nan => exact .nan h
  | infinite negative => exact .infinite h
  | finite negative significand scale =>
    obtain ⟨he, hx⟩ := eq_ofBits_of_finite h
    show Written x (signText negative ++ magnitudeText significand scale)
    have hwritten := magnitudeText_cases significand scale
    generalize magnitudeText significand scale = s at hwritten ⊢
    cases hwritten with
    | whole hunits hlt => exact .whole h hunits hlt
    | @shortest n k hwhole hdecimal =>
      have hholds := holds_decimal significand scale
      have hcoarser (m : Nat) (j : Int) (hj : k < j) : ofDecimal negative m j ≠ x := by
        rw [hx]
        exact ofDecimal_ne_of_lt he (significand_pos hwhole) (hdecimal ▸ hj)
      rw [hdecimal] at hholds
      exact .shortest h hwhole (ofDecimal_of_holds he hholds ▸ hx.symm) hcoarser

theorem text_toList_of_finite {significand scale : Nat}
    (h : decode x = .finite negative significand scale) :
    (Double.text x).toList = signChars negative ++ (magnitudeText significand scale).toList := by
  rw [text_of_finite h, String.toList_append]
  cases negative <;> rfl

/-- The text of a finite double is read as a value whose double it is. -/
theorem exists_readNumber_finite {significand scale : Nat}
    (h : decode x = .finite negative significand scale) :
    ∃ v, readNumber? (Double.text x) = some v ∧ v.asFloat? = some x := by
  obtain ⟨he, hx⟩ := eq_ofBits_of_finite h
  obtain ⟨n, k, hspells, hholds, hpos⟩ := (magnitudeText_cases significand scale).exists_spells
  rcases readNumber_of_spells hspells (text_toList_of_finite h) with hread | ⟨rfl, i, hi, hread⟩
  · exact ⟨_, hread, congrArg some ((ofDecimal_of_holds he hholds).trans hx.symm)⟩
  · refine ⟨_, hread, congrArg some ?_⟩
    rw [hi, ofInt_of_holds he (hpos rfl) hholds]
    exact hx.symm

/-- The texts of the infinities and of NaN are words that the reader of doubles knows. -/
theorem readNumber_infinite (negative : Bool) :
    readNumber? (if negative then "-inf" else "inf") =
      some (.float (ofBits (signBits negative + infinityBits))) := by
  cases negative <;> rfl

theorem readNumber_nan : readNumber? "NaN" = some (.float notANumber) := rfl

/-- The text of a double is read as a value whose double has its bits; the text of NaN as NaN. -/
theorem exists_readNumber_text (x : Float) :
    ∃ v y, readNumber? (Double.text x) = some v ∧ v.asFloat? = some y ∧ Same x y := by
  have hsame : Same x x := ⟨fun _ => rfl, id⟩
  cases h : decode x with
  | nan =>
    rw [text_of_nan h]
    exact ⟨_, _, readNumber_nan, rfl, fun hne => absurd h hne, fun _ => decode_notANumber⟩
  | infinite negative =>
    rw [text_of_infinite h]
    exact ⟨_, _, readNumber_infinite negative, rfl, eq_ofBits_of_infinite h ▸ hsame⟩
  | finite negative significand scale =>
    obtain ⟨v, hread, hv⟩ := exists_readNumber_finite h
    exact ⟨v, x, hread, hv, hsame⟩

/-! ## The builtins -/

/-- A builtin makes `u` of `v` in every world, which it leaves as it is. -/
def Makes (b : Builtin) (v u : Value) : Prop :=
  ∀ w, b.tryCall [v] w = (.ok u, w) ∧ b.call [v] w = (.ok u, w)

theorem makes_of_run {b : Builtin} {c : Computation} {v u : Value} (hop : b.operation = .compute c)
    (harity : b.arity.accepts 1) (hrun : ∀ resolved, c.run resolved ⟨b.name, [v]⟩ = .ok u) :
    Makes b v u := by
  intro w
  have htry : b.tryCall [v] w = (.ok u, w) := by
    rw [Builtin.tryCall_of_accepts harity, hop]
    simp only [Operation.run, Step.bind_run, Step.get_run, Step.ofResult_run, hrun]
  refine ⟨htry, ?_⟩
  rw [Builtin.call_run, htry]
  rfl

theorem makes_toString {v : Value} (h : v.scalarText? = some s) :
    Makes ⟨"ToString", .compute .toString⟩ v (.string s) := by
  apply makes_of_run rfl rfl
  intro resolved
  show Except.ok (Value.string (v.inspect resolved)) = _
  rw [Value.inspect_of_scalarText? resolved h]

theorem makes_toNumber {v : Value} (h : readNumber? s = some v) :
    Makes ⟨"ToNumber", .compute .toNumber⟩ (.string s) v := by
  apply makes_of_run rfl rfl
  intro _
  have hvalue : Arguments.value ⟨"ToNumber", [.string s]⟩ 0 = .ok (.string s) := rfl
  simp only [Computation.run, toNumber, hvalue, Result.ok_bind, h]
  rfl

theorem makes_toInt {i : Int64} (h : readInteger? (stripBlanks s.toList) = some i) :
    Makes ⟨"ToInt", .compute .toInt⟩ (.string s) (.int i) := by
  apply makes_of_run rfl rfl
  intro _
  have hvalue : Arguments.value ⟨"ToInt", [.string s]⟩ 0 = .ok (.string s) := rfl
  simp only [Computation.run, toInt, hvalue, Result.ok_bind, h]
  rfl

/-- Numbers return from their texts. -/
structure Returns (toText toNumber toInt : Builtin) : Prop where
  /-- An integer is read as itself by both readers. -/
  integer (i : Int64) : ∃ s, Makes toText (.int i) (.string s) ∧
    Makes toNumber (.string s) (.int i) ∧ Makes toInt (.string s) (.int i)
  /-- A double is written by the rules and read as a value whose double is the same. -/
  double (x : Float) : ∃ s v y, Makes toText (.float x) (.string s) ∧ Written x s ∧
    Makes toNumber (.string s) v ∧ v.asFloat? = some y ∧ Double.Same x y

/-- Every integer and every double returns from its text. -/
theorem numbers_return : ∃ toText toNumber toInt,
    Builtin.lookup? "ToString" = some toText ∧ Builtin.lookup? "ToNumber" = some toNumber ∧
      Builtin.lookup? "ToInt" = some toInt ∧ Returns toText toNumber toInt := by
  refine ⟨⟨"ToString", .compute .toString⟩, ⟨"ToNumber", .compute .toNumber⟩,
    ⟨"ToInt", .compute .toInt⟩, by decide +kernel, by decide +kernel, by decide +kernel, ?_, ?_⟩
  · intro i
    exact ⟨integerText i, makes_toString rfl, makes_toNumber (readNumber_integerText i),
      makes_toInt (readInteger_integerText i)⟩
  · intro x
    obtain ⟨v, y, hread, hy, hsame⟩ := exists_readNumber_text x
    exact ⟨Double.text x, v, y, makes_toString rfl, written_text x, makes_toNumber hread, hy, hsame⟩

end Conversions

end ScriptValues
