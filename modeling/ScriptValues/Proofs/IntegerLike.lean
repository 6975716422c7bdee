import ScriptValues.Proofs.NumbersReturn

/-!
# Doubles that are written like integers

A whole double keeps one decimal place below `10 ^ 15` only. From there on its shortest digits are
followed by zeros and nothing else, which is the text of an integer. As long as it fits in 64 bits,
the text is read back as that integer, so the number changes its type on the way. All other doubles
are written with a point or with a word, as no integer is.

* `Shortest.exists_eq_mul_of_holds`: only a whole double rounds from an integer.
* `Shortest.holds_cases`: an integer that rounds to a double lies on its side of `2 ^ 63`.
* `Conversions.looksInteger_iff_exists_integerText`: the doubles with the text of an integer.
* `Conversions.kinds_kept_iff`: the doubles that keep their type and their text to themselves.
-/

namespace ScriptValues

variable {significand scale m n : Nat} {negative : Bool} {x : Float}

/-- A number times a power of ten has the digits of the number, and zeros behind them. -/
theorem toDigits_mul_tenTo (hn : 0 < n) (e : Nat) :
    Nat.toDigits 10 (n * tenTo e) = Nat.toDigits 10 n ++ List.replicate e '0' := by
  induction e with
  | zero => simp [tenTo]
  | succ e ih =>
    have hpos : 0 < n * tenTo e := Nat.mul_pos hn (tenTo_pos e)
    have hstep : n * tenTo (e + 1) = 10 * (n * tenTo e) + 0 := by
      rw [tenTo_add, show tenTo 1 = 10 from rfl]
      ring
    rw [hstep, ← Nat.toDigits_append_toDigits (by decide) hpos (by decide), ih,
      List.append_assoc, List.replicate_succ']
    rfl

/-- The steps of a larger scale are at least twice as long. -/
theorem two_mul_twoTo_le (h : m < n) : 2 * twoTo m ≤ twoTo n :=
  calc 2 * twoTo m = twoTo (1 + m) := (twoTo_add 1 m).symm
    _ ≤ twoTo n := twoTo_le (by omega)

/-- Two multiples of a step are at least a step apart. -/
theorem mul_add_le_mul {step : Nat} (h : m < n) : m * step + step ≤ n * step := by
  rw [← Nat.succ_mul]
  exact Nat.mul_le_mul_right step h

namespace Shortest

open Double

/-! ## Integers in the interval of a double -/

/-- A quotient in the interval of a double is at most half a step away. -/
theorem near_of_contains {a d : Nat}
    (h : (Interval.ofDouble significand scale).contains (4 * a) d) :
    2 * (significand * (d * 2 ^ scale)) ≤ 2 * a + d * 2 ^ scale ∧
      2 * a ≤ 2 * (significand * (d * 2 ^ scale)) + d * 2 ^ scale := by
  by_cases hpower : significand = 2 ^ 52 ∧ 0 < scale
  · obtain ⟨rfl, hpos⟩ := hpower
    have hbounds := (Interval.contains_power_iff hpos).1 h
    omega
  · have hnearest := (Interval.contains_iff_isNearest hpower).1 h
    exact ⟨hnearest.lower, hnearest.upper⟩

theorem holds_zero_iff {i : Interval} : i.Holds n 0 ↔ i.contains (4 * (n * unitsPerOne)) 1 := by
  have hquotient : n * tenTo 0 * unitsPerOne = n * unitsPerOne := by
    rw [show tenTo 0 = 1 from rfl, Nat.mul_one]
  rw [← hquotient]
  exact holds_iff_contains

/-- An integer in the interval of a double is at most half a step away. -/
theorem near_of_holds (h : (Interval.ofDouble significand scale).Holds n 0) :
    2 * (significand * twoTo scale) ≤ 2 * (n * unitsPerOne) + twoTo scale ∧
      2 * (n * unitsPerOne) ≤ 2 * (significand * twoTo scale) + twoTo scale := by
  have hnear := near_of_contains (holds_zero_iff.1 h)
  rw [Nat.one_mul] at hnear
  exact hnear

/-- A whole double is an integer in its interval. -/
theorem holds_of_eq_mul (h : significand * twoTo scale = n * unitsPerOne) :
    (Interval.ofDouble significand scale).Holds n 0 := by
  rw [holds_zero_iff, ← h, ← Nat.mul_assoc]
  have hvalue := contains_value significand scale Nat.one_pos
  rw [Nat.mul_one] at hvalue
  exact hvalue

/-- Multiples of a step that are at most half a step apart are equal. -/
theorem eq_of_near {p q step : Nat} (hstep : 0 < step)
    (hle : 2 * (p * step) ≤ 2 * (q * step) + step)
    (hge : 2 * (q * step) ≤ 2 * (p * step) + step) : p = q := by
  rcases Nat.lt_trichotomy p q with hlt | heq | hgt
  · have happart : p * step + step ≤ q * step := mul_add_le_mul hlt
    omega
  · exact heq
  · have happart : q * step + step ≤ p * step := mul_add_le_mul hgt
    omega

/-- Only a whole double has an integer in its interval. -/
theorem exists_eq_mul_of_holds (h : (Interval.ofDouble significand scale).Holds n 0) :
    ∃ m, significand * twoTo scale = m * unitsPerOne := by
  obtain ⟨hlower, hupper⟩ := near_of_holds h
  rcases Nat.le_total scale 1074 with hscale | hscale
  · -- the double and the integer are both multiples of the step
    have hunits : unitsPerOne = twoTo (1074 - scale) * twoTo scale := by
      rw [unitsPerOne, ← twoTo_add, Nat.sub_add_cancel hscale]
    refine ⟨n, ?_⟩
    rw [hunits, ← Nat.mul_assoc n] at hlower hupper ⊢
    rw [eq_of_near (twoTo_pos scale) hlower hupper]
  · have hstep : twoTo scale = twoTo (scale - 1074) * unitsPerOne := by
      rw [unitsPerOne, ← twoTo_add, Nat.sub_add_cancel hscale]
    exact ⟨significand * twoTo (scale - 1074), by rw [hstep, ← Nat.mul_assoc]⟩

theorem two_pow_mul_unitsPerOne : 2 ^ 63 * unitsPerOne = 2 ^ 52 * twoTo 1085 := by
  rw [unitsPerOne, show 2 ^ 63 = twoTo 63 from rfl, show 2 ^ 52 = twoTo 52 from rfl, ← twoTo_add,
    ← twoTo_add]

/-- The shortest digits of `2 ^ 63` lie above it. -/
theorem decimal_two_pow : decimal (2 ^ 52) 1085 = (9223372036854776, 3) := by
  decide +kernel

/-- Unless a double is `2 ^ 63`, the integers in its interval are on the same side of it. -/
theorem holds_cases (he : Encoded significand scale)
    (h : (Interval.ofDouble significand scale).Holds n 0) :
    (significand * twoTo scale < 2 ^ 63 * unitsPerOne ∧ n < 2 ^ 63) ∨
      (significand = 2 ^ 52 ∧ scale = 1085) ∨
      (2 ^ 63 * unitsPerOne < significand * twoTo scale ∧ 2 ^ 63 < n) := by
  obtain ⟨hlower, hupper⟩ := near_of_holds h
  have hstep := twoTo_pos scale
  have hbelow (hlt : n * unitsPerOne < 2 ^ 63 * unitsPerOne) : n < 2 ^ 63 :=
    Nat.lt_of_mul_lt_mul_right hlt
  have habove (hlt : 2 ^ 63 * unitsPerOne < n * unitsPerOne) : 2 ^ 63 < n :=
    Nat.lt_of_mul_lt_mul_right hlt
  rw [two_pow_mul_unitsPerOne] at hbelow habove ⊢
  rcases Nat.lt_trichotomy scale 1085 with hscale | rfl | hscale
  · -- a smaller step, and less than `2 ^ 53` of them
    have hdouble := two_mul_twoTo_le hscale
    have hapart : significand * twoTo scale + twoTo scale ≤ 2 ^ 53 * twoTo scale :=
      mul_add_le_mul he.lt_two_pow
    generalize twoTo 1085 = step at *
    exact .inl ⟨by omega, hbelow (by omega)⟩
  · rcases Nat.eq_or_lt_of_le (he.two_pow_le (by decide)) with heq | hgt
    · exact .inr (.inl ⟨heq.symm, rfl⟩)
    · have hapart : 2 ^ 52 * twoTo 1085 + twoTo 1085 ≤ significand * twoTo 1085 :=
        mul_add_le_mul hgt
      generalize twoTo 1085 = step at *
      exact .inr (.inr ⟨by omega, habove (by omega)⟩)
  · -- a larger step, and at least `2 ^ 52` of them
    have hdouble := two_mul_twoTo_le hscale
    have hmul : 2 ^ 52 * twoTo scale ≤ significand * twoTo scale :=
      Nat.mul_le_mul_right _ (he.two_pow_le (by omega))
    generalize twoTo 1085 = step at *
    exact .inr (.inr ⟨by omega, habove (by omega)⟩)

/-! ## What is written -/

/-- From the limit on, a whole double is written like an integer, and with one that fits in 64 bits
exactly if its own value does. -/
theorem exists_digits (he : Encoded significand scale)
    (hvalue : significand * twoTo scale = m * unitsPerOne) (hm : wholeLimit ≤ m) :
    ∃ n, (magnitudeText significand scale).toList = Nat.toDigits 10 n ∧ 0 < n ∧
      (m < 2 ^ 63 ∧ n < 2 ^ 63 ∨ 2 ^ 63 ≤ m ∧ 2 ^ 63 < n) := by
  have hwritten := magnitudeText_cases significand scale
  generalize magnitudeText significand scale = text at hwritten ⊢
  cases hwritten with
  | @whole small hunits hlt =>
    have hsmall : small = m := Nat.eq_of_mul_eq_mul_right unitsPerOne_pos (hunits.symm.trans hvalue)
    omega
  | @shortest n k hwhole hdecimal =>
    have hpos := significand_pos hwhole
    have hholds := holds_decimal significand scale
    have hk := le_decimal he hpos (holds_of_eq_mul hvalue)
    rw [hdecimal] at hholds hk
    cases k with
    | negSucc e => exact absurd hk (by simp)
    | ofNat e =>
      have hnatural := Interval.Holds.mul_tenTo hholds
      refine ⟨n * tenTo e, ?_, pos_of_holds hpos hnatural, ?_⟩
      · rw [positional_ofNat_toList, toDigits_mul_tenTo (pos_of_holds hpos hholds)]
      · rcases holds_cases he hnatural with ⟨hlt, hn⟩ | ⟨rfl, rfl⟩ | ⟨hgt, hn⟩
        · rw [hvalue] at hlt
          exact .inl ⟨Nat.lt_of_mul_lt_mul_right hlt, hn⟩
        · rw [decimal_two_pow] at hdecimal
          obtain ⟨rfl, hthree⟩ := Prod.mk.inj hdecimal
          obtain rfl : 3 = e := Int.ofNat.inj hthree
          rw [← two_pow_mul_unitsPerOne] at hvalue
          have hm63 : 2 ^ 63 = m := Nat.eq_of_mul_eq_mul_right unitsPerOne_pos hvalue
          exact .inr ⟨by omega, by decide⟩
        · rw [hvalue] at hgt
          exact .inr ⟨Nat.le_of_lt (Nat.lt_of_mul_lt_mul_right hgt), hn⟩

/-- Any other finite double is written with a point. -/
theorem point_mem_magnitudeText
    (h : ∀ m, wholeLimit ≤ m → significand * twoTo scale ≠ m * unitsPerOne) :
    '.' ∈ (magnitudeText significand scale).toList := by
  have hwritten := magnitudeText_cases significand scale
  generalize magnitudeText significand scale = text at hwritten ⊢
  cases hwritten with
  | whole _ _ => simp
  | @shortest n k hwhole hdecimal =>
    have hholds := holds_decimal significand scale
    rw [hdecimal] at hholds
    cases k with
    | negSucc e => simp [positional]
    | ofNat e =>
      -- without a point the digits would be an integer in the interval
      obtain ⟨m, hm⟩ := exists_eq_mul_of_holds (Interval.Holds.mul_tenTo hholds)
      rcases Nat.lt_or_ge m wholeLimit with hlt | hge
      · exact absurd hm (hwhole m hlt)
      · exact absurd hm (h m hge)

end Shortest

namespace Conversions

open Double Shortest

variable {s : String} {cs : List Char} {k : Int}

/-! ## What is read -/

/-- A text with a point is read as a double. -/
theorem readNumber_of_point (h : Spells cs n k) (hs : s.toList = signChars negative ++ cs)
    (hpoint : '.' ∈ cs) : readNumber? s = some (.float (ofDecimal negative n k)) := by
  apply readNumber_of_no_integer h hs
  exact readInteger_of_point (List.mem_append_right _ hpoint)

/-- The digits of an integer that does not fit are read as a double. -/
theorem readNumber_of_not_fits (hs : s.toList = signChars negative ++ Nat.toDigits 10 n)
    (hfits : ¬ Checked.Fits (signed negative n)) : ∃ y, readNumber? s = some (.float y) := by
  have hspells := Spells.whole Nat.toDigits_ne_nil (allDigits_toDigits n)
  refine ⟨_, readNumber_of_no_integer hspells hs ?_⟩
  rw [readInteger_of_digits Nat.toDigits_ne_nil (allDigits_toDigits n), digitsValue_toDigits]
  exact Checked.ofInt_eq_none.2 hfits

/-- The digits of a positive integer that fits, behind a sign, are the text of that integer. -/
theorem eq_integerText (hs : s.toList = signChars negative ++ Nat.toDigits 10 n) (hn : 0 < n)
    (hlt : n < 2 ^ 63) : ∃ i, s = integerText i := by
  have hfits : Checked.Fits (signed negative n) :=
    Checked.fits_of_natAbs_lt (by rwa [natAbs_signed])
  refine ⟨Int64.ofInt (signed negative n), String.toList_injective ?_⟩
  rw [hs, integerText_toList, Checked.toInt_ofInt hfits, decide_signed_lt_zero hn, natAbs_signed]

/-! ## Doubles that look like integers -/

/-- `x` is a whole number that fits in 64 bits with a sign, of magnitude `10 ^ 15` or more. -/
def LooksInteger (x : Float) : Prop :=
  ∃ i : Int, units? x = some (i * unitsPerOne) ∧ 10 ^ 15 ≤ i.natAbs ∧ i.natAbs < 2 ^ 63

theorem units_of_finite (h : decode x = .finite negative significand scale) :
    units? x = some (signed negative (significand * twoTo scale)) := by
  unfold units?
  rw [h]
  rfl

/-- The magnitude of a whole double. -/
theorem eq_mul_natAbs {i : Int} (h : decode x = .finite negative significand scale)
    (hi : units? x = some (i * unitsPerOne)) :
    significand * twoTo scale = i.natAbs * unitsPerOne := by
  rw [units_of_finite h] at hi
  have habs := congrArg Int.natAbs (Option.some.inj hi)
  rw [natAbs_signed, Int.natAbs_mul, Int.natAbs_natCast] at habs
  exact habs

theorem units_of_eq_mul (h : decode x = .finite negative significand scale)
    (hvalue : significand * twoTo scale = m * unitsPerOne) :
    units? x = some (signed negative m * unitsPerOne) := by
  rw [units_of_finite h, hvalue]
  unfold signed
  split
  · push_cast
    rw [Int.neg_mul]
  · push_cast
    rfl

theorem exists_finite {u : Int} (h : units? x = some u) :
    ∃ negative significand scale, decode x = .finite negative significand scale := by
  unfold units? at h
  split at h
  · next heq => exact ⟨_, _, _, heq⟩
  · cases h

/-- The text of a double that looks like an integer is the text of one. -/
theorem LooksInteger.exists_eq_integerText (h : LooksInteger x) :
    ∃ j, Double.text x = integerText j := by
  obtain ⟨i, hi, hlarge, hfits⟩ := h
  obtain ⟨negative, significand, scale, hdecode⟩ := exists_finite hi
  obtain ⟨n, htext, hn, hside⟩ :=
    exists_digits (eq_ofBits_of_finite hdecode).1 (eq_mul_natAbs hdecode hi) hlarge
  have hs := text_toList_of_finite hdecode
  rw [htext] at hs
  exact eq_integerText hs hn (by omega)

/-- The text of any other double is read as a double. -/
theorem exists_float_of_not_looksInteger (h : ¬ LooksInteger x) :
    ∃ y, readNumber? (Double.text x) = some (.float y) := by
  cases hdecode : decode x with
  | nan =>
    rw [text_of_nan hdecode]
    exact ⟨_, readNumber_nan⟩
  | infinite negative =>
    rw [text_of_infinite hdecode]
    exact ⟨_, readNumber_infinite negative⟩
  | finite negative significand scale =>
    have hs := text_toList_of_finite hdecode
    by_cases hlarge : ∃ m, wholeLimit ≤ m ∧ significand * twoTo scale = m * unitsPerOne
    · obtain ⟨m, hm, hvalue⟩ := hlarge
      obtain ⟨n, htext, -, hside⟩ := exists_digits (eq_ofBits_of_finite hdecode).1 hvalue hm
      have hwide : ¬ m < 2 ^ 63 := fun hlt => h
        ⟨_, units_of_eq_mul hdecode hvalue, by rwa [natAbs_signed], by rwa [natAbs_signed]⟩
      rw [htext] at hs
      apply readNumber_of_not_fits hs
      intro hfits
      have hle := Checked.natAbs_le_of_fits hfits
      rw [natAbs_signed] at hle
      omega
    · obtain ⟨n, k, hspells, -⟩ := (magnitudeText_cases significand scale).exists_spells
      have hpoint := point_mem_magnitudeText fun m hm hvalue => hlarge ⟨m, hm, hvalue⟩
      exact ⟨_, readNumber_of_point hspells hs hpoint⟩

/-- No other double has the text of an integer. -/
theorem looksInteger_iff_exists_integerText :
    LooksInteger x ↔ ∃ j, Double.text x = integerText j := by
  constructor
  · exact LooksInteger.exists_eq_integerText
  · rintro ⟨j, hj⟩
    by_contra hnot
    obtain ⟨y, hread⟩ := exists_float_of_not_looksInteger hnot
    rw [hj, readNumber_integerText] at hread
    cases Option.some.inj hread

/-- A whole double has one decimal place behind its sign and magnitude exactly below `10 ^ 15`. -/
theorem text_eq_place_iff {i : Int} (hi : units? x = some (i * unitsPerOne)) :
    Double.text x = signText (isNegative x) ++ (i.natAbs.repr ++ ".0") ↔ i.natAbs < 10 ^ 15 := by
  obtain ⟨negative, significand, scale, hdecode⟩ := exists_finite hi
  have hvalue := eq_mul_natAbs hdecode hi
  have hsign : isNegative x = negative := by
    unfold isNegative
    rw [hdecode]
  rw [hsign, text_of_finite hdecode, String.append_right_inj]
  constructor
  · intro hplace
    by_contra hlarge
    obtain ⟨n, hdigits, -⟩ :=
      exists_digits (eq_ofBits_of_finite hdecode).1 hvalue (Nat.le_of_not_lt hlarge)
    have hpoint : '.' ∈ Nat.toDigits 10 n := by
      rw [← hdigits, hplace]
      simp
    exact absurd (allDigits_toDigits n '.' hpoint) (by decide)
  · intro hsmall
    have hlimit : i.natAbs < wholeLimit := hsmall
    unfold magnitudeText
    simp [hvalue, Nat.mul_div_cancel _ unitsPerOne_pos, hlimit]

/-! ## The way through a text and back -/

/-- `v` is of the same kind as what `toNumber` makes of the text that `toText` makes of it. -/
def KindReturns (toText toNumber : Builtin) (v : Value) : Prop :=
  ∃ s u, Makes toText v (.string s) ∧ Makes toNumber (.string s) u ∧ u.kind = v.kind

theorem Makes.unique {b : Builtin} {u u' v : Value} (h : Makes b v u) (h' : Makes b v u') :
    u = u' := by
  have hcall := (h .bare).1.symm.trans (h' .bare).1
  exact Except.ok.inj (Prod.mk.inj hcall).1

/-- The kind of a scalar returns exactly if its text is read as a number of that kind. -/
theorem kindReturns_iff {v : Value} {s : String} {u : Value} (hs : v.scalarText? = some s)
    (hu : readNumber? s = some u) :
    KindReturns ⟨"ToString", .compute .toString⟩ ⟨"ToNumber", .compute .toNumber⟩ v ↔
      u.kind = v.kind := by
  constructor
  · rintro ⟨s', u', htext, hnumber, hkind⟩
    obtain rfl := Value.string.inj (htext.unique (makes_toString hs))
    rwa [hnumber.unique (makes_toNumber hu)] at hkind
  · exact fun hkind => ⟨s, u, makes_toString hs, makes_toNumber hu, hkind⟩

/-- An integer is of its kind again when its text is read. So is a double, and no integer has its
text, unless it looks like an integer. A whole double has a decimal place below `10 ^ 15` only. -/
theorem kinds_kept_iff (i : Int64) (x : Float) (resolved : FutureId → Bool) :
    ∃ toText toNumber, Builtin.lookup? "ToString" = some toText ∧
      Builtin.lookup? "ToNumber" = some toNumber ∧
      KindReturns toText toNumber (.int i) ∧
      (KindReturns toText toNumber (.float x) ↔ ¬ LooksInteger x) ∧
      ((∃ j, (Value.int j).inspect resolved = (Value.float x).inspect resolved) ↔
        LooksInteger x) ∧
      ∀ n : Int, units? x = some (n * unitsPerOne) →
        ((Value.float x).inspect resolved =
          signText (isNegative x) ++ (n.natAbs.repr ++ ".0") ↔ n.natAbs < 10 ^ 15) := by
  refine ⟨⟨"ToString", .compute .toString⟩, ⟨"ToNumber", .compute .toNumber⟩, rfl, rfl, ?_, ?_, ?_,
    fun n hn => text_eq_place_iff hn⟩
  · exact (kindReturns_iff rfl (readNumber_integerText i)).2 rfl
  · constructor
    · intro hreturns hlooks
      obtain ⟨j, hj⟩ := hlooks.exists_eq_integerText
      have hread : readNumber? (Double.text x) = some (.int j) := hj ▸ readNumber_integerText j
      cases (kindReturns_iff (v := .float x) rfl hread).1 hreturns
    · intro hnot
      obtain ⟨y, hread⟩ := exists_float_of_not_looksInteger hnot
      exact (kindReturns_iff rfl hread).2 rfl
  · rw [looksInteger_iff_exists_integerText]
    exact exists_congr fun j => eq_comm

/-- The last whole double before `10 ^ 15` keeps its decimal place. -/
theorem kinds_kept_beforeQuadrillion :
    units? (ofBits 0x430c6bf52633fff8) = some ((999999999999999 : Int) * unitsPerOne) ∧
      (Value.float (ofBits 0x430c6bf52633fff8)).inspect (fun _ => false) =
        "999999999999999.0" := by
  have hunits : units? (ofBits 0x430c6bf52633fff8) =
      some ((999999999999999 : Int) * unitsPerOne) := by
    decide +kernel
  obtain ⟨-, -, -, -, -, -, -, hplace⟩ :=
    kinds_kept_iff 0 (ofBits 0x430c6bf52633fff8) fun _ => false
  refine ⟨hunits, ((hplace _ hunits).2 (by decide)).trans ?_⟩
  decide +kernel

/-- The double `10 ^ 15` has the text of an integer, and its kind does not return from it. -/
theorem quadrillion_looks_integer :
    (Value.float (ofBits 0x430c6bf526340000)).inspect (fun _ => false) =
        (Value.int 1000000000000000).inspect (fun _ => false) ∧
      ¬ KindReturns ⟨"ToString", .compute .toString⟩ ⟨"ToNumber", .compute .toNumber⟩
        (.float (ofBits 0x430c6bf526340000)) := by
  have htext : Double.text (ofBits 0x430c6bf526340000) = integerText 1000000000000000 := by
    decide +kernel
  have hread := readNumber_integerText 1000000000000000
  refine ⟨htext, fun hreturns => ?_⟩
  rw [← htext] at hread
  cases (kindReturns_iff (v := .float _) rfl hread).1 hreturns

end Conversions

end ScriptValues
