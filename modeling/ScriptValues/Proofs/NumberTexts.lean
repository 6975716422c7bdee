import ScriptValues.Operations.Conversions
import ScriptValues.Proofs.Numerals
import ScriptValues.Value.Inspect

/-!
# Reading the texts of numbers

The text of a number spells a decimal: digits, perhaps with a point among them, behind a sign. It is
a numeral without an exponent, so what is read from it is the integer of the digits if there is no
point and it fits, and else the double nearest to the decimal. The text of a finite double spells a
decimal in its interval, so either way the double comes back.

* `Spells`: unsigned texts and the decimals they spell.
* `readInteger_of_digits`, `readDouble_of_spells`: what is read from them.
* `magnitudeText_cases`: how a finite double is written.
* `MagnitudeText.exists_spells`: its text spells a decimal in its interval.
-/

namespace ScriptValues

/-! ## Digits -/

variable {c : Char} {cs : List Char} {negative : Bool} {n : Nat} {k : Int}

theorem AllDigits.append {ds : List Char} (h : AllDigits cs) (hds : AllDigits ds) :
    AllDigits (cs ++ ds) := by
  intro c hc
  rcases List.mem_append.1 hc with hc | hc
  · exact h c hc
  · exact hds c hc

theorem allDigits_toDigits (n : Nat) : AllDigits (Nat.toDigits 10 n) :=
  fun _ hc => Nat.isDigit_of_mem_toDigits (by decide) (by decide) hc

theorem allDigits_zeros (m : Nat) : AllDigits (List.replicate m '0') := by
  intro c hc
  rw [(List.mem_replicate.1 hc).2]
  rfl

theorem digitsValue_zeros_append (m : Nat) (cs : List Char) :
    digitsValue (List.replicate m '0' ++ cs) = digitsValue cs := by
  unfold digitsValue
  rw [Nat.ofDigitChars_append, Nat.ofDigitChars_replicate_zero, Nat.mul_zero]

theorem digitsValue_append_zeros (cs : List Char) (m : Nat) :
    digitsValue (cs ++ List.replicate m '0') = digitsValue cs * tenTo m := by
  unfold digitsValue
  rw [Nat.ofDigitChars_append, Nat.ofDigitChars_replicate_zero, Nat.mul_comm]
  rfl

theorem digitsValue_toDigits (n : Nat) : digitsValue (Nat.toDigits 10 n) = n :=
  Nat.ofDigitChars_ten_toDigits

/-! ## Texts that spell a decimal -/

/-- Unsigned texts and the decimals `n · 10 ^ k` that they spell. -/
inductive Spells : List Char → Nat → Int → Prop where
  | whole {digits : List Char} : digits ≠ [] → AllDigits digits →
      Spells digits (digitsValue digits) 0
  | point {whole places : List Char} : whole ≠ [] → AllDigits whole → AllDigits places →
      Spells (whole ++ '.' :: places) (digitsValue (whole ++ places)) (-places.length)

/-- A spelled text is digits and perhaps a point. -/
theorem Spells.mem (h : Spells cs n k) (hc : c ∈ cs) : c.isDigit ∨ c = '.' := by
  cases h with
  | whole _ hdigits => exact .inl (hdigits c hc)
  | point _ hwhole hplaces =>
    rcases List.mem_append.1 hc with hc | hc
    · exact .inl (hwhole c hc)
    · rcases List.mem_cons.1 hc with rfl | hc
      · exact .inr rfl
      · exact .inl (hplaces c hc)

def signChars (negative : Bool) : List Char := if negative then ['-'] else []

theorem sign_signChars (negative : Bool) : Sign (signChars negative) negative := by
  cases negative with
  | false => exact .absent
  | true => exact .minus

/-- A spelled text is a decimal without an exponent. -/
theorem Spells.decimal (h : Spells cs n k) : Decimal cs n k := by
  cases h with
  | whole hne hdigits =>
    have hdecimal := Decimal.intro (.whole hne hdigits) .absent
    rw [List.append_nil] at hdecimal
    exact hdecimal
  | @point whole places hne hwhole hplaces =>
    have hne' : whole ++ places ≠ [] := List.append_ne_nil_of_left_ne_nil hne places
    have hdecimal := Decimal.intro (.point hne' hwhole hplaces) .absent
    rw [List.append_nil, Int.zero_sub] at hdecimal
    exact hdecimal

/-! ## Reading -/

/-- Digits without a point are read as an integer if it fits. -/
theorem readInteger_of_digits (hne : cs ≠ []) (h : AllDigits cs) :
    readInteger? (signChars negative ++ cs) =
      Checked.ofInt? (signed negative (digitsValue cs)) := by
  have hwhole := Whole.intro (sign_signChars negative) hne h
  rw [readInteger?, readSigned_eq_some.2 hwhole, Option.bind_some]

/-- A text with a point is not read as an integer. -/
theorem readInteger_of_point (hpoint : '.' ∈ cs) : readInteger? cs = none := by
  rw [Option.eq_none_iff_forall_ne_some]
  intro a ha
  rcases (readInteger_eq_some.1 ha).mem hpoint with h | h | h
  · cases h
  · cases h
  · cases h

/-- The double that a spelled text denotes is the one nearest to the decimal. -/
theorem readDouble_of_spells (h : Spells cs n k) :
    readDouble? (signChars negative ++ cs) = some (Double.ofDecimal negative n k) :=
  readDouble_eq_some.2 ⟨_, .decimal (sign_signChars negative) h.decimal, rfl⟩

/-! ## Writing -/

theorem positional_ofNat_toList (n e : Nat) :
    (positional n (.ofNat e)).toList = Nat.toDigits 10 n ++ List.replicate e '0' := by
  simp only [positional, String.toList_append, String.toList_ofList, Nat.repr_eq_ofList_toDigits]

theorem spells_positional_ofNat (n e : Nat) :
    Spells (positional n (.ofNat e)).toList (n * tenTo e) 0 := by
  have hne : Nat.toDigits 10 n ++ List.replicate e '0' ≠ [] :=
    List.append_ne_nil_of_left_ne_nil Nat.toDigits_ne_nil _
  have hspells := Spells.whole hne ((allDigits_toDigits n).append (allDigits_zeros e))
  rw [digitsValue_append_zeros, digitsValue_toDigits] at hspells
  rw [positional_ofNat_toList]
  exact hspells

theorem spells_positional_negSucc (n e : Nat) :
    Spells (positional n (.negSucc e)).toList n (.negSucc e) := by
  -- the digits behind enough zeros for one digit before the point
  obtain ⟨padded, hpadded⟩ : ∃ padded, padded =
      List.replicate (e + 1 + 1 - (Nat.toDigits 10 n).length) '0' ++ Nat.toDigits 10 n := ⟨_, rfl⟩
  have htext : (positional n (.negSucc e)).toList =
      padded.take (padded.length - (e + 1)) ++ '.' :: padded.drop (padded.length - (e + 1)) := by
    simp only [positional, String.toList_append, String.toList_ofList, Nat.repr_eq_ofList_toDigits,
      ← hpadded]
    simp
  have hlength : e + 1 < padded.length := by
    rw [hpadded, List.length_append, List.length_replicate]
    omega
  have hdigits : AllDigits padded := hpadded ▸ (allDigits_zeros _).append (allDigits_toDigits n)
  have hvalue : digitsValue padded = n := by
    rw [hpadded, digitsValue_zeros_append, digitsValue_toDigits]
  have hwhole : padded.take (padded.length - (e + 1)) ≠ [] := by
    rw [Ne, ← List.length_eq_zero_iff, List.length_take]
    omega
  have hplaces : (padded.drop (padded.length - (e + 1))).length = e + 1 := by
    rw [List.length_drop]
    omega
  have htake : AllDigits (padded.take (padded.length - (e + 1))) := fun c hc =>
    hdigits c (List.mem_of_mem_take hc)
  have hdrop : AllDigits (padded.drop (padded.length - (e + 1))) := fun c hc =>
    hdigits c (List.mem_of_mem_drop hc)
  have hspells := Spells.point hwhole htake hdrop
  rw [List.take_append_drop, hvalue, hplaces] at hspells
  rw [htext]
  exact hspells

open Shortest Double

/-- Without a point, the zeros of a decimal belong to its digits. -/
theorem Shortest.Interval.Holds.mul_tenTo {i : Interval} {e : Nat} (h : i.Holds n (.ofNat e)) :
    i.Holds (n * tenTo e) 0 := by
  have hstep : n * tenTo e * (4 * unitsPerOne * tenTo 0) = n * (4 * unitsPerOne * tenTo e) := by
    rw [show tenTo 0 = 1 from rfl]
    ring
  rw [Interval.holds_ofNat] at h
  show i.Holds (n * tenTo e) (.ofNat 0)
  rw [Interval.holds_ofNat, hstep]
  exact h

variable {significand scale : Nat}

/-- How the magnitude of a finite double is written: a whole one below the limit with one decimal
place, and any other with its shortest digits. -/
inductive MagnitudeText (significand scale : Nat) : String → Prop where
  | whole {n : Nat} : significand * twoTo scale = n * unitsPerOne → n < wholeLimit →
      MagnitudeText significand scale (n.repr ++ ".0")
  | shortest {n : Nat} {k : Int} :
      (∀ m < wholeLimit, significand * twoTo scale ≠ m * unitsPerOne) →
      decimal significand scale = (n, k) → MagnitudeText significand scale (positional n k)

theorem magnitudeText_cases (significand scale : Nat) :
    MagnitudeText significand scale (magnitudeText significand scale) := by
  have hunits := unitsPerOne_pos
  unfold magnitudeText
  simp only
  split
  · next hwhole =>
    simp only [Bool.and_eq_true, decide_eq_true_eq] at hwhole
    obtain ⟨hmod, hlt⟩ := hwhole
    exact .whole (Nat.div_mul_cancel (Nat.dvd_of_mod_eq_zero hmod)).symm hlt
  · next hnot =>
    refine .shortest (fun m hm heq => hnot ?_) rfl
    rw [heq, Nat.mul_mod_left, Nat.mul_div_cancel _ hunits]
    simp [hm]

theorem significand_pos (h : ∀ m < wholeLimit, significand * twoTo scale ≠ m * unitsPerOne) :
    0 < significand := by
  apply Nat.pos_of_ne_zero
  rintro rfl
  exact h 0 (tenTo_pos 15) (by rw [Nat.zero_mul, Nat.zero_mul])

/-- One decimal place spells a whole number. -/
theorem spells_repr_append (n : Nat) : Spells (n.repr ++ ".0").toList (n * tenTo 1) (-1) := by
  have hspells : Spells (Nat.toDigits 10 n ++ '.' :: ['0'])
      (digitsValue (Nat.toDigits 10 n ++ ['0'])) (-1) :=
    Spells.point Nat.toDigits_ne_nil (allDigits_toDigits n) (allDigits_zeros 1)
  have hvalue : digitsValue (Nat.toDigits 10 n ++ ['0']) = n * tenTo 1 := by
    have hzeros := digitsValue_append_zeros (Nat.toDigits 10 n) 1
    rw [digitsValue_toDigits] at hzeros
    exact hzeros
  rw [hvalue] at hspells
  rw [String.toList_append, Nat.repr_eq_ofList_toDigits, String.toList_ofList]
  exact hspells

/-- A whole double lies in its interval as a decimal with one place. -/
theorem holds_of_whole (h : significand * twoTo scale = n * unitsPerOne) :
    (Interval.ofDouble significand scale).Holds (n * tenTo 1) (-1) := by
  have hstep : n * tenTo 1 * (4 * unitsPerOne) = 4 * significand * twoTo scale * tenTo 1 := by
    rw [Nat.mul_assoc 4 significand, h]
    ring
  show (Interval.ofDouble significand scale).Holds (n * tenTo 1) (.negSucc 0)
  rw [Interval.holds_negSucc, hstep]
  exact contains_value significand scale (tenTo_pos 1)

/-- The text of a finite double spells a decimal in its interval; without a point it is positive. -/
theorem MagnitudeText.exists_spells {s : String} (h : MagnitudeText significand scale s) :
    ∃ n k, Spells s.toList n k ∧ (Interval.ofDouble significand scale).Holds n k ∧
      (k = 0 → 0 < n) := by
  cases h with
  | @whole n hunits _ =>
    exact ⟨n * tenTo 1, -1, spells_repr_append n, holds_of_whole hunits, fun h => by cases h⟩
  | @shortest n k hwhole hdecimal =>
    have hpos := significand_pos hwhole
    have hholds := holds_decimal significand scale
    rw [hdecimal] at hholds
    cases k with
    | ofNat e =>
      have hnatural := Interval.Holds.mul_tenTo hholds
      exact ⟨n * tenTo e, 0, spells_positional_ofNat n e, hnatural,
        fun _ => pos_of_holds hpos hnatural⟩
    | negSucc e => exact ⟨n, _, spells_positional_negSucc n e, hholds, fun h => by cases h⟩

end ScriptValues
