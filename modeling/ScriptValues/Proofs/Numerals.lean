import ScriptValues.Number.Reading
import ScriptValues.Proofs.CheckedIntegers
import ScriptValues.Proofs.Rounding
import ScriptValues.Text.Blank

/-!
# Numerals

The texts that the readers of numbers accept, as a grammar. A whole number is a sign and digits. A
numeral is a sign and one of the words for NaN and infinity, or a sign, digits with or without a
point, and perhaps an exponent. The readers accept just these texts: they find the one way in which
a text can be taken apart, and what they answer is what the parts denote.

* `Whole`, `Numeral`: the grammar, with what a text denotes.
* `readInteger_eq_some`: whole numbers that fit are what the reader of integers accepts.
* `readDouble_eq_some`: numerals are what the reader of doubles accepts.
* `Stripped`: a text without the blanks at its ends, of which there is one.
-/

namespace ScriptValues

/-! ## The grammar -/

/-- Optional signs, and whether they say that a number is negative. -/
inductive Sign : List Char → Bool → Prop where
  | absent : Sign [] false
  | plus : Sign ['+'] false
  | minus : Sign ['-'] true

def AllDigits (cs : List Char) : Prop := ∀ c ∈ cs, c.isDigit

/-- Digits behind an optional sign. -/
inductive Whole : List Char → Int → Prop where
  | intro {sign ds : List Char} {negative : Bool} : Sign sign negative → ds ≠ [] → AllDigits ds →
      Whole (sign ++ ds) (signed negative (digitsValue ds))

/-- Digits with an optional point, of which one side may be empty. The places are the digits behind
the point. -/
inductive Mantissa : List Char → Nat → Nat → Prop where
  | whole {ds : List Char} : ds ≠ [] → AllDigits ds → Mantissa ds (digitsValue ds) 0
  | point {ds ps : List Char} : ds ++ ps ≠ [] → AllDigits ds → AllDigits ps →
      Mantissa (ds ++ '.' :: ps) (digitsValue (ds ++ ps)) ps.length

/-- An optional exponent: a mark and a whole number. -/
inductive Exponent : List Char → Int → Prop where
  | absent : Exponent [] 0
  | marked {c : Char} {cs : List Char} {e : Int} : c = 'e' ∨ c = 'E' → Whole cs e →
      Exponent (c :: cs) e

/-- Unsigned decimals `n · 10 ^ k`. -/
inductive Decimal : List Char → Nat → Int → Prop where
  | intro {ms es : List Char} {n places : Nat} {e : Int} : Mantissa ms n places → Exponent es e →
      Decimal (ms ++ es) n (e - places)

/-- What a numeral denotes. -/
inductive Meaning where
  | nan
  | infinite (negative : Bool)
  | decimal (negative : Bool) (n : Nat) (k : Int)

/-- The text is this word, with letters of any case. -/
def InAnyCase (word : String) (cs : List Char) : Prop := cs.map Char.toLower = word.toList

instance (word : String) (cs : List Char) : Decidable (InAnyCase word cs) :=
  inferInstanceAs (Decidable (_ = _))

/-- The numerals of doubles. -/
inductive Numeral : List Char → Meaning → Prop where
  | nan {sign cs : List Char} {negative : Bool} : Sign sign negative → InAnyCase "nan" cs →
      Numeral (sign ++ cs) .nan
  | infinite {sign cs : List Char} {negative : Bool} : Sign sign negative →
      InAnyCase "inf" cs ∨ InAnyCase "infinity" cs → Numeral (sign ++ cs) (.infinite negative)
  | decimal {sign cs : List Char} {negative : Bool} {n : Nat} {k : Int} : Sign sign negative →
      Decimal cs n k → Numeral (sign ++ cs) (.decimal negative n k)

variable {c : Char} {cs ds es sign : List Char} {negative : Bool} {n : Nat} {e i k : Int}
  {p : Char → Bool} {x : Float}

/-! ## Digits -/

theorem toNat_of_isDigit (h : c.isDigit) : 48 ≤ c.toNat ∧ c.toNat ≤ 57 := by
  simpa [Char.isDigit, UInt32.le_iff_toNat_le] using h

theorem toLower_of_isDigit (h : c.isDigit) : c.toLower = c := by
  obtain ⟨hlo, hhi⟩ := toNat_of_isDigit h
  have hval : c.val.toNat = c.toNat := rfl
  simp only [Char.toLower, UInt32.le_iff_toNat_le, ge_iff_le]
  rw [dif_neg]
  intro hupper
  have h65 : 'A'.val.toNat = 65 := rfl
  omega

theorem ne_of_isDigit (h : c.isDigit) : c ≠ '+' ∧ c ≠ '-' := by
  constructor
  · rintro rfl
    cases h
  · rintro rfl
    cases h

/-! ## Where a part of a text ends -/

/-- The text is empty or begins with a character of which this holds. -/
def Begins (p : Char → Prop) (cs : List Char) : Prop := ∀ c ∈ cs.head?, p c

theorem begins_nil {p : Char → Prop} : Begins p [] := nofun

theorem begins_cons {p : Char → Prop} : Begins p (c :: cs) ↔ p c := by
  constructor
  · intro h
    exact h c rfl
  · intro h d hd
    exact Option.some.inj hd ▸ h

theorem takeWhile_append_of_begins (hds : ∀ c ∈ ds, p c) (hcs : Begins (p · = false) cs) :
    (ds ++ cs).takeWhile p = ds := by
  rw [List.takeWhile_append_of_pos hds]
  cases cs with
  | nil => exact List.append_nil ds
  | cons c cs => rw [List.takeWhile_cons_of_neg (by simp [begins_cons.1 hcs]), List.append_nil]

theorem dropWhile_append_of_begins (hds : ∀ c ∈ ds, p c) (hcs : Begins (p · = false) cs) :
    (ds ++ cs).dropWhile p = cs := by
  rw [List.dropWhile_append_of_pos hds]
  cases cs with
  | nil => rfl
  | cons c cs => rw [List.dropWhile_cons_of_neg (by simp [begins_cons.1 hcs])]

theorem begins_dropWhile (p : Char → Bool) (cs : List Char) :
    Begins (p · = false) (cs.dropWhile p) := by
  intro c hc
  have hhead := List.head?_dropWhile_not p cs
  rw [Option.mem_def.1 hc] at hhead
  exact hhead

theorem Begins.of_append {p : Char → Prop} (h : Begins p (ds ++ cs)) : Begins p ds := by
  cases ds with
  | nil => exact begins_nil
  | cons c ds => exact begins_cons.2 (begins_cons.1 h)

/-! ## Signs -/

theorem takeSign_of_sign (h : Sign sign negative) (hcs : Begins (fun c => c ≠ '+' ∧ c ≠ '-') cs) :
    takeSign (sign ++ cs) = (negative, cs) := by
  cases h with
  | plus => rfl
  | minus => rfl
  | absent =>
    rw [List.nil_append]
    unfold takeSign
    split
    · exact absurd rfl (begins_cons.1 hcs).1
    · exact absurd rfl (begins_cons.1 hcs).2
    · rfl

/-- What is split off from a text is a sign. -/
theorem exists_sign (cs : List Char) :
    ∃ sign, Sign sign (takeSign cs).1 ∧ cs = sign ++ (takeSign cs).2 := by
  unfold takeSign
  split
  · exact ⟨_, .plus, rfl⟩
  · exact ⟨_, .minus, rfl⟩
  · exact ⟨_, .absent, rfl⟩

/-- Signs are neither digits nor letters. -/
theorem ne_of_toLower {d : Char} (h : c.toLower = d) (hd : d ≠ '+' ∧ d ≠ '-') :
    c ≠ '+' ∧ c ≠ '-' := by
  constructor
  · rintro rfl
    exact hd.1 h.symm
  · rintro rfl
    exact hd.2 h.symm

/-! ## Whole numbers -/

theorem readNatural_eq_some :
    readNatural? cs = some n ↔ cs ≠ [] ∧ AllDigits cs ∧ digitsValue cs = n := by
  have haccepts : (!cs.isEmpty && cs.all Char.isDigit) = true ↔ cs ≠ [] ∧ AllDigits cs := by
    simp [AllDigits]
  unfold readNatural?
  rw [Option.ite_none_right_eq_some, haccepts, and_assoc, Option.some_inj]

theorem readSigned_eq (cs : List Char) :
    readSigned? cs = (readNatural? (takeSign cs).2).map (signed (takeSign cs).1) := by
  unfold readSigned?
  cases h : readNatural? (takeSign cs).2 with
  | none =>
    simp only [h]
    rfl
  | some n =>
    simp only [h]
    rfl

/-- The reader of signed digits accepts the whole numbers. -/
theorem readSigned_eq_some : readSigned? cs = some i ↔ Whole cs i := by
  rw [readSigned_eq]
  constructor
  · intro h
    obtain ⟨sign, hsign, hcs⟩ := exists_sign cs
    obtain ⟨n, hn, hi⟩ := Option.map_eq_some_iff.1 h
    obtain ⟨hne, hdigits, rfl⟩ := readNatural_eq_some.1 hn
    rw [hcs, ← hi]
    exact .intro hsign hne hdigits
  · rintro ⟨hsign, hne, hdigits⟩
    have hbegins : Begins (fun c => c ≠ '+' ∧ c ≠ '-') _ := fun c hc =>
      ne_of_isDigit (hdigits c (List.mem_of_mem_head? hc))
    rw [takeSign_of_sign hsign hbegins, readNatural_eq_some.2 ⟨hne, hdigits, rfl⟩]
    rfl

/-- A whole number consists of signs and digits. -/
theorem Whole.mem (h : Whole cs i) (hc : c ∈ cs) : c = '+' ∨ c = '-' ∨ c.isDigit := by
  obtain ⟨hsign, -, hdigits⟩ := h
  rcases List.mem_append.1 hc with hc | hc
  · cases hsign with
    | absent => cases hc
    | plus => exact .inl (List.mem_singleton.1 hc)
    | minus => exact .inr (.inl (List.mem_singleton.1 hc))
  · exact .inr (.inr (hdigits c hc))

/-- The reader of integers accepts the whole numbers that fit. -/
theorem readInteger_eq_some {a : Int64} : readInteger? cs = some a ↔ Whole cs a.toInt := by
  unfold readInteger?
  rw [Option.bind_eq_some_iff]
  constructor
  · rintro ⟨i, hi, ha⟩
    rw [Checked.ofInt_eq_some.1 ha]
    exact readSigned_eq_some.1 hi
  · intro h
    exact ⟨a.toInt, readSigned_eq_some.2 h, Checked.ofInt_toInt a⟩

/-! ## Decimals -/

theorem readExponent_cons :
    readExponent? (c :: cs) = if c = 'e' ∨ c = 'E' then readSigned? cs else none := by
  simp [readExponent?]

theorem readExponent_eq_some : readExponent? es = some e ↔ Exponent es e := by
  constructor
  · intro h
    cases es with
    | nil =>
      obtain rfl := Option.some.inj h
      exact .absent
    | cons c cs =>
      rw [readExponent_cons] at h
      split at h
      · next hmark => exact .marked hmark (readSigned_eq_some.1 h)
      · cases h
  · intro h
    cases h with
    | absent => rfl
    | marked hmark hwhole =>
      rw [readExponent_cons, if_pos hmark]
      exact readSigned_eq_some.2 hwhole

/-- An exponent begins neither with a digit nor with a point. -/
theorem Exponent.begins (h : Exponent es e) : Begins (fun c => c.isDigit = false ∧ c ≠ '.') es := by
  cases h with
  | absent => exact begins_nil
  | marked hmark _ =>
    rw [begins_cons]
    rcases hmark with rfl | rfl
    · decide
    · decide

/-- The reader of unsigned decimals splits off the digits, and behind a point the places. -/
theorem readDecimal_whole (hds : AllDigits ds)
    (hes : Begins (fun c => c.isDigit = false ∧ c ≠ '.') es) :
    readDecimal? negative (ds ++ es) = if ds = [] then none else
      (readExponent? es).map fun e => Double.ofDecimal negative (digitsValue ds) e := by
  have hbegins : Begins (fun c => c.isDigit = false) es := fun c hc => (hes c hc).1
  unfold readDecimal?
  simp only [takeWhile_append_of_begins hds hbegins, dropWhile_append_of_begins hds hbegins]
  split
  · exact absurd rfl (begins_cons.1 hes).2
  · simp

theorem readDecimal_point {ps : List Char} (hds : AllDigits ds) (hps : AllDigits ps)
    (hes : Begins (fun c => c.isDigit = false) es) :
    readDecimal? negative (ds ++ '.' :: (ps ++ es)) = if ds ++ ps = [] then none else
      (readExponent? es).map fun e =>
        Double.ofDecimal negative (digitsValue (ds ++ ps)) (e - ps.length) := by
  have hpoint : Begins (fun c => c.isDigit = false) ('.' :: (ps ++ es)) := begins_cons.2 rfl
  unfold readDecimal?
  simp only [takeWhile_append_of_begins hds hpoint, dropWhile_append_of_begins hds hpoint,
    takeWhile_append_of_begins hps hes, dropWhile_append_of_begins hps hes]
  simp

/-- Every text is digits in front of what does not begin with one. -/
theorem exists_digits_append (cs : List Char) :
    ∃ ds es, cs = ds ++ es ∧ AllDigits ds ∧ Begins (fun c => c.isDigit = false) es := by
  refine ⟨cs.takeWhile Char.isDigit, cs.dropWhile Char.isDigit,
    List.takeWhile_append_dropWhile.symm, fun c hc => List.mem_takeWhile_imp hc, ?_⟩
  exact begins_dropWhile Char.isDigit cs

/-- The reader of unsigned decimals accepts the decimals. -/
theorem readDecimal_eq_some : readDecimal? negative cs = some x ↔
    ∃ n k, Decimal cs n k ∧ Double.ofDecimal negative n k = x := by
  constructor
  · intro h
    obtain ⟨ds, es, rfl, hds, hes⟩ := exists_digits_append cs
    by_cases hpoint : ∃ rest, es = '.' :: rest
    · obtain ⟨rest, rfl⟩ := hpoint
      obtain ⟨ps, es, rfl, hps, hes⟩ := exists_digits_append rest
      rw [readDecimal_point hds hps hes] at h
      split at h
      · cases h
      · next hne =>
        obtain ⟨e, he, hx⟩ := Option.map_eq_some_iff.1 h
        have hdecimal := Decimal.intro (.point hne hds hps) (readExponent_eq_some.1 he)
        rw [List.append_assoc, List.cons_append] at hdecimal
        exact ⟨_, _, hdecimal, hx⟩
    · have hbegins : Begins (fun c => c.isDigit = false ∧ c ≠ '.') es := by
        intro c hc
        refine ⟨hes c hc, ?_⟩
        rintro rfl
        cases es with
        | nil => cases hc
        | cons d rest => exact hpoint ⟨rest, by rw [Option.some.inj hc]⟩
      rw [readDecimal_whole hds hbegins] at h
      split at h
      · cases h
      · next hne =>
        obtain ⟨e, he, hx⟩ := Option.map_eq_some_iff.1 h
        have hdecimal := Decimal.intro (.whole hne hds) (readExponent_eq_some.1 he)
        rw [Int.natCast_zero, Int.sub_zero] at hdecimal
        exact ⟨_, _, hdecimal, hx⟩
  · rintro ⟨n, k, ⟨hmantissa, hexponent⟩, rfl⟩
    have hread := readExponent_eq_some.2 hexponent
    cases hmantissa with
    | whole hne hds =>
      rw [readDecimal_whole hds hexponent.begins, if_neg hne, hread, Option.map_some,
        Int.natCast_zero, Int.sub_zero]
    | point hne hds hps =>
      have hbegins : Begins (fun c => c.isDigit = false) _ := fun c hc =>
        (hexponent.begins c hc).1
      rw [List.append_assoc, List.cons_append, readDecimal_point hds hps hbegins, if_neg hne, hread,
        Option.map_some]

/-! ## Numerals -/

def Meaning.double : Meaning → Float
  | .nan => Double.notANumber
  | .infinite negative => Double.ofBits (Double.signBits negative + Double.infinityBits)
  | .decimal negative n k => Double.ofDecimal negative n k

theorem inAnyCase_iff {word : String} :
    InAnyCase word cs ↔ String.ofList (cs.map Char.toLower) = word := by
  unfold InAnyCase
  constructor
  · intro h
    rw [h, String.ofList_toList]
  · rintro rfl
    rw [String.toList_ofList]

theorem InAnyCase.unique {word word' : String} (h : InAnyCase word cs) (h' : InAnyCase word' cs) :
    word = word' :=
  String.toList_inj.1 (h.symm.trans h')

/-- A word begins with its first letter, in either case. -/
theorem InAnyCase.begins {word : String} {first : Char} {rest : List Char}
    (h : InAnyCase word cs) (hword : word.toList = first :: rest) :
    Begins (fun c => c.toLower = first) cs := by
  unfold InAnyCase at h
  rw [hword] at h
  cases cs with
  | nil => exact begins_nil
  | cons c cs => exact begins_cons.2 (List.cons.inj h).1

/-- A decimal begins with a digit or the point. -/
theorem Decimal.exists_cons (h : Decimal cs n k) :
    ∃ c rest, cs = c :: rest ∧ (c.isDigit ∨ c = '.') := by
  obtain ⟨hmantissa, -⟩ := h
  cases hmantissa with
  | whole hne hds =>
    obtain ⟨c, rest, rfl⟩ := List.exists_cons_of_ne_nil hne
    exact ⟨c, _, rfl, .inl (hds c List.mem_cons_self)⟩
  | @point ds ps _ hds _ =>
    cases ds with
    | nil => exact ⟨'.', _, rfl, .inr rfl⟩
    | cons c rest => exact ⟨c, _, rfl, .inl (hds c List.mem_cons_self)⟩

/-- So no sign can be split off from it, and it is none of the words. -/
theorem Decimal.begins (h : Decimal cs n k) :
    Begins (fun c => c ≠ '+' ∧ c ≠ '-' ∧ c.toLower ≠ 'i' ∧ c.toLower ≠ 'n') cs := by
  obtain ⟨c, rest, rfl, hc⟩ := h.exists_cons
  rw [begins_cons]
  rcases hc with hdigit | rfl
  · have hsign := ne_of_isDigit hdigit
    have hlower := toLower_of_isDigit hdigit
    refine ⟨hsign.1, hsign.2, ?_, ?_⟩
    · intro hi
      rw [hlower.symm.trans hi] at hdigit
      cases hdigit
    · intro hn
      rw [hlower.symm.trans hn] at hdigit
      cases hdigit
  · decide

theorem Decimal.not_inAnyCase {word : String} {first : Char} {rest : List Char}
    (h : Decimal cs n k) (hword : word.toList = first :: rest)
    (hfirst : first = 'i' ∨ first = 'n') : ¬ InAnyCase word cs := by
  intro hcase
  have hbegins := hcase.begins hword
  have hdecimal := h.begins
  obtain ⟨c, others, rfl, -⟩ := h.exists_cons
  have hc := begins_cons.1 hbegins
  obtain ⟨-, -, hi, hn⟩ := begins_cons.1 hdecimal
  rcases hfirst with rfl | rfl
  · exact hi hc
  · exact hn hc

theorem readDouble_eq (cs : List Char) : readDouble? cs =
    if InAnyCase "inf" (takeSign cs).2 ∨ InAnyCase "infinity" (takeSign cs).2 then
      some (Meaning.infinite (takeSign cs).1).double
    else if InAnyCase "nan" (takeSign cs).2 then some Meaning.nan.double
    else readDecimal? (takeSign cs).1 (takeSign cs).2 := by
  unfold readDouble?
  simp only [inAnyCase_iff, Bool.or_eq_true, decide_eq_true_eq]
  rfl

/-- The reader of doubles accepts the numerals. -/
theorem readDouble_eq_some : readDouble? cs = some x ↔ ∃ d, Numeral cs d ∧ d.double = x := by
  rw [readDouble_eq]
  constructor
  · intro h
    obtain ⟨sign, hsign, hcs⟩ := exists_sign cs
    rw [hcs]
    generalize (takeSign cs).1 = negative at *
    generalize (takeSign cs).2 = rest at *
    split at h
    · next hword => exact ⟨_, .infinite hsign hword, Option.some.inj h⟩
    · split at h
      · next hword => exact ⟨_, .nan hsign hword, Option.some.inj h⟩
      · obtain ⟨n, k, hdecimal, hx⟩ := readDecimal_eq_some.1 h
        exact ⟨_, .decimal hsign hdecimal, hx⟩
  · rintro ⟨d, hnumeral, rfl⟩
    cases hnumeral with
    | nan hsign hword =>
      have hbegins : Begins (fun c => c ≠ '+' ∧ c ≠ '-') _ := fun c hc =>
        ne_of_toLower (hword.begins rfl c hc) (by decide)
      have hinf : ¬ InAnyCase "inf" _ := fun h => absurd (hword.unique h) (by decide)
      have hinfinity : ¬ InAnyCase "infinity" _ := fun h => absurd (hword.unique h) (by decide)
      rw [takeSign_of_sign hsign hbegins, if_neg (not_or.2 ⟨hinf, hinfinity⟩), if_pos hword]
    | @infinite sign rest negative hsign hword =>
      have hbegins : Begins (fun c => c ≠ '+' ∧ c ≠ '-') rest := by
        intro c hc
        rcases hword with hword | hword
        · exact ne_of_toLower (hword.begins rfl c hc) (by decide)
        · exact ne_of_toLower (hword.begins rfl c hc) (by decide)
      rw [takeSign_of_sign hsign hbegins, if_pos hword]
    | decimal hsign hdecimal =>
      have hbegins : Begins (fun c => c ≠ '+' ∧ c ≠ '-') _ := fun c hc =>
        ⟨(hdecimal.begins c hc).1, (hdecimal.begins c hc).2.1⟩
      have hinf := hdecimal.not_inAnyCase (rfl : "inf".toList = _) (.inl rfl)
      have hinfinity := hdecimal.not_inAnyCase (rfl : "infinity".toList = _) (.inl rfl)
      have hnan := hdecimal.not_inAnyCase (rfl : "nan".toList = _) (.inr rfl)
      rw [takeSign_of_sign hsign hbegins, if_neg (not_or.2 ⟨hinf, hinfinity⟩), if_neg hnan]
      exact readDecimal_eq_some.2 ⟨_, _, hdecimal, rfl⟩

/-! ## Blanks at the ends -/

/-- The ranges of code points with the Unicode property `White_Space`. -/
def whiteSpace : List (Nat × Nat) :=
  [(0x9, 0xd), (0x20, 0x20), (0x85, 0x85), (0xa0, 0xa0), (0x1680, 0x1680), (0x2000, 0x200a),
   (0x2028, 0x2028), (0x2029, 0x2029), (0x202f, 0x202f), (0x205f, 0x205f), (0x3000, 0x3000)]

/-- Whether a character is in one of the ranges. -/
def IsWhiteSpace (c : Char) : Prop := ∃ r ∈ whiteSpace, r.1 ≤ c.toNat ∧ c.toNat ≤ r.2

theorem withinBounds_cons_cons (start stop : Nat) (bounds : List Nat) (m : Nat) :
    withinBounds (start :: stop :: bounds) m ↔
      start ≤ m ∧ (m < stop ∨ stop ≤ m ∧ withinBounds bounds m) := by
  unfold withinBounds
  by_cases hstart : start ≤ m
  · by_cases hstop : stop ≤ m
    · have hparity (l : Nat) : (l + 1 + 1) % 2 = l % 2 := by omega
      simp [hstart, hstop, hparity]
    · simp [hstart, hstop, Nat.not_le.1 hstop]
  · simp [hstart]

theorem isBlank_iff : isBlank c ↔ IsWhiteSpace c := by
  unfold isBlank IsWhiteSpace blankBounds whiteSpace
  generalize c.toNat = m
  have hnil : withinBounds [] m = false := rfl
  simp only [withinBounds_cons_cons, hnil, Bool.false_eq_true, List.mem_cons, List.not_mem_nil,
    or_and_right, exists_or, exists_eq_left, or_false, and_false]
  omega

/-- `ts` is what is left of a text without the white space at its ends. -/
structure Stripped (cs ts : List Char) : Prop where
  between : ∃ front back, cs = front ++ (ts ++ back) ∧ (∀ c ∈ front, IsWhiteSpace c) ∧
    ∀ c ∈ back, IsWhiteSpace c
  first : ∀ c ∈ ts.head?, ¬ IsWhiteSpace c
  last : ∀ c ∈ ts.getLast?, ¬ IsWhiteSpace c

/-- Every text can be stripped, and in one way only. -/
theorem stripped_iff {ts : List Char} : Stripped cs ts ↔ stripBlanks cs = ts := by
  constructor
  · rintro ⟨⟨front, back, rfl, hfront, hback⟩, hfirst, hlast⟩
    simp only [← isBlank_iff, Bool.not_eq_true] at hfront hback hfirst hlast
    unfold stripBlanks dropWhileEnd
    cases ts with
    | nil =>
      have hall : (front ++ ([] ++ back)).dropWhile isBlank = [] := by
        rw [List.dropWhile_eq_nil_iff]
        intro c hc
        rcases List.mem_append.1 hc with hc | hc
        · exact hfront c hc
        · exact hback c hc
      rw [hall]
      rfl
    | cons c ts =>
      have hbegins : Begins (fun c => isBlank c = false) (c :: ts ++ back) :=
        begins_cons.2 (hfirst c rfl)
      have hends : Begins (fun c => isBlank c = false) (c :: ts).reverse := by
        intro d hd
        rw [List.head?_reverse] at hd
        exact hlast d hd
      have hback' : ∀ d ∈ back.reverse, isBlank d := fun d hd => hback d (List.mem_reverse.1 hd)
      rw [dropWhile_append_of_begins hfront hbegins, List.reverse_append,
        dropWhile_append_of_begins hback' hends, List.reverse_reverse]
  · rintro rfl
    have hback : stripBlanks cs ++ (cs.dropWhile isBlank).rtakeWhile isBlank =
        cs.dropWhile isBlank := List.rdropWhile_append_rtakeWhile ..
    have hsplit : cs = cs.takeWhile isBlank ++
        (stripBlanks cs ++ (cs.dropWhile isBlank).rtakeWhile isBlank) := by
      rw [hback, List.takeWhile_append_dropWhile]
    refine ⟨⟨_, _, hsplit, ?_, ?_⟩, ?_, ?_⟩
    · intro c hc
      exact isBlank_iff.1 (List.mem_takeWhile_imp hc)
    · intro c hc
      exact isBlank_iff.1 (List.mem_rtakeWhile_imp hc)
    · intro c hc
      have hbegins := begins_dropWhile isBlank cs
      rw [← hback] at hbegins
      rw [← isBlank_iff, hbegins.of_append c hc]
      exact Bool.false_ne_true
    · intro c hc
      have hends := begins_dropWhile isBlank (cs.dropWhile isBlank).reverse
      rw [stripBlanks, dropWhileEnd, List.getLast?_reverse] at hc
      rw [← isBlank_iff, hends c hc]
      exact Bool.false_ne_true

end ScriptValues
