import Mathlib.Data.Char
import ScriptValues.Proofs.ByteOrder
import ScriptValues.Proofs.Ranges

/-!
# Texts within texts

`starts_with`, `ends_with` and `contains` ask whether the characters of one text are a prefix, a
suffix or an infix of those of another. A text is within another exactly at the positions from which
`substring` cuts it out, and those at which `split` cuts. Since the first byte of a character in
UTF-8 is no later byte of any other, the same holds of the bytes, in which no text is found that the
characters do not show.

* `Segment.occurs_iff_infix`: what the search loop finds.
* `infix_encoded_iff`: the bytes of a text are within those of another exactly if the text is.
* `Texts.predicateLaws`: every call of the three predicates on two texts.
-/

namespace ScriptValues

/-! ## Occurrences and infixes -/

namespace Segment

variable {t cs : List Char} {i : Nat}

theorem infix_of_occursAt (h : OccursAt t cs i) : t <:+: cs :=
  (List.IsPrefix.isInfix h).trans (List.drop_suffix i cs).isInfix

/-- The search loop finds a text exactly if it is within the other. -/
theorem occurs_iff_infix (t cs : List Char) : occurs t cs ↔ t <:+: cs := by
  unfold occurs
  cases hcut : cut? t cs with
  | none =>
    have hnot : ¬ t <:+: cs := by
      intro hinfix
      obtain ⟨i, -, hoccurs⟩ := exists_occursAt_of_infix hinfix
      have hat := hoccurs []
      rw [List.append_nil] at hat
      exact not_occursAt_of_uncut hcut hat
    exact iff_of_false Bool.false_ne_true hnot
  | some cut =>
    obtain ⟨before, rest⟩ := cut
    exact iff_of_true rfl ⟨before, rest, by rw [append_of_cut? hcut, List.append_assoc]⟩

/-- A text is within another exactly if it occurs at a position that leaves room for it. -/
theorem infix_iff_occursAt (t cs : List Char) :
    t <:+: cs ↔ ∃ i, i + t.length ≤ cs.length ∧ OccursAt t cs i := by
  constructor
  · intro hinfix
    obtain ⟨i, hlength, hoccurs⟩ := exists_occursAt_of_infix hinfix
    have hat := hoccurs []
    rw [List.append_nil] at hat
    exact ⟨i, hlength, hat⟩
  · rintro ⟨i, -, hat⟩
    exact infix_of_occursAt hat

/-- A text is a suffix of another exactly if it occurs where just its length is left. -/
theorem suffix_iff_occursAt (h : i + t.length = cs.length) : t <:+ cs ↔ OccursAt t cs i := by
  have hi : cs.length - t.length = i := by omega
  rw [List.suffix_iff_eq_drop, hi]
  constructor
  · intro heq
    unfold OccursAt
    rw [← heq]
  · intro hat
    apply List.IsPrefix.eq_of_length hat
    rw [List.length_drop]
    omega

/-- There is more than one part exactly if something was cut out. -/
theorem one_lt_length_parts_iff (ht : t ≠ []) (cs : List Char) :
    1 < (parts t ht cs).length ↔ occurs t cs := by
  unfold parts occurs
  split
  · next hcut =>
    rw [hcut]
    simp
  · next before rest hcut =>
    have hpos := List.length_pos_iff.2 (parts_ne_nil ht rest)
    rw [hcut, List.length_cons]
    exact iff_of_true (by omega) rfl

end Segment

/-! ## Occurrences in the bytes -/

section Bytes

variable {cs ds : List Char} {c d : Char} {front us vs : List UInt8} {b : UInt8}

/-- The bytes of characters one after the other. -/
def encoded (cs : List Char) : List UInt8 := cs.flatMap String.utf8EncodeChar

theorem encoded_cons (c : Char) (cs : List Char) :
    encoded (c :: cs) = String.utf8EncodeChar c ++ encoded cs := List.flatMap_cons

theorem encoded_append (cs ds : List Char) : encoded (cs ++ ds) = encoded cs ++ encoded ds :=
  List.flatMap_append

/-- The first character can be told from the bytes, whatever follows it. -/
theorem eq_of_utf8EncodeChar_append
    (h : String.utf8EncodeChar c ++ us = String.utf8EncodeChar d ++ vs) : c = d := by
  have hirrefl : ¬ String.utf8EncodeChar c ++ us < String.utf8EncodeChar d ++ vs := by
    rw [h]
    exact List.lt_irrefl _
  have hirrefl' : ¬ String.utf8EncodeChar d ++ vs < String.utf8EncodeChar c ++ us := by
    rw [h]
    exact List.lt_irrefl _
  rcases lt_trichotomy c d with hlt | heq | hgt
  · exact absurd (utf8EncodeChar_append_lt hlt us vs) hirrefl
  · exact heq
  · exact absurd (utf8EncodeChar_append_lt hgt vs us) hirrefl'

/-- Characters whose bytes are the first ones of others are the first ones of them. -/
theorem prefix_of_encoded_append (h : encoded ds ++ us = encoded cs) : ds <+: cs := by
  induction ds generalizing cs with
  | nil => exact List.nil_prefix
  | cons d ds ih =>
    cases cs with
    | nil =>
      rw [encoded_cons, List.append_assoc] at h
      exact absurd (List.append_eq_nil_iff.1 h).1 String.utf8EncodeChar_ne_nil
    | cons c cs =>
      rw [encoded_cons, encoded_cons, List.append_assoc] at h
      obtain rfl := eq_of_utf8EncodeChar_append h
      exact (List.prefix_cons_inj d).2 (ih (List.append_cancel_left h))

/-- The bytes of characters are cut before a first byte only between characters. -/
theorem exists_append_of_encoded (hb : b.IsUTF8FirstByte) (h : encoded cs = front ++ b :: us) :
    ∃ left right, cs = left ++ right ∧ encoded left = front := by
  induction cs generalizing front with
  | nil => exact absurd h.symm (by simp [encoded])
  | cons c cs ih =>
    rw [encoded_cons] at h
    rcases List.append_eq_append_iff.1 h with ⟨rest, hfront, hrest⟩ | ⟨rest, hc, hrest⟩
    · -- the character stands before the cut
      obtain ⟨left, right, rfl, hleft⟩ := ih hrest
      exact ⟨c :: left, right, rfl, by rw [encoded_cons, hleft, hfront]⟩
    · cases rest with
      | nil =>
        -- the cut is right behind the character
        rw [List.append_nil] at hc
        exact ⟨[c], cs, rfl, by rw [encoded, List.flatMap_singleton, hc]⟩
      | cons b' rest =>
        -- a first byte within a character is its first one
        obtain rfl : b = b' := (List.cons.inj hrest).1
        have hlt : front.length < (String.utf8EncodeChar c).length := by
          rw [hc, List.length_append, List.length_cons]
          omega
        have hbyte : (String.utf8EncodeChar c)[front.length] = b := by
          simp only [hc, List.getElem_append_right (Nat.le_refl _), Nat.sub_self,
            List.getElem_cons_zero]
        rw [← hbyte, UInt8.isUTF8FirstByte_getElem_utf8EncodeChar] at hb
        obtain rfl := List.length_eq_zero_iff.1 hb
        exact ⟨[], c :: cs, rfl, rfl⟩

/-- Where the bytes of a text are found, it stands there itself. -/
theorem exists_append_of_encoded_append (hds : ds ≠ [])
    (h : encoded cs = front ++ (encoded ds ++ us)) :
    ∃ left right, cs = left ++ right ∧ encoded right = encoded ds ++ us := by
  obtain ⟨d, ds, rfl⟩ := List.exists_cons_of_ne_nil hds
  obtain ⟨b, bs, hd⟩ := List.exists_cons_of_ne_nil (String.utf8EncodeChar_ne_nil (c := d))
  have hb : b.IsUTF8FirstByte := by
    have hfirst := UInt8.isUTF8FirstByte_getElem_zero_utf8EncodeChar (c := d)
    simpa only [hd, List.getElem_cons_zero] using hfirst
  have hcut : encoded cs = front ++ b :: (bs ++ encoded ds ++ us) := by
    rw [h, encoded_cons, hd]
    simp
  obtain ⟨left, right, rfl, hleft⟩ := exists_append_of_encoded hb hcut
  refine ⟨left, right, rfl, ?_⟩
  rw [encoded_append, hleft] at h
  exact List.append_cancel_left h

theorem prefix_encoded_iff (ds cs : List Char) : encoded ds <+: encoded cs ↔ ds <+: cs := by
  constructor
  · rintro ⟨us, h⟩
    exact prefix_of_encoded_append h
  · rintro ⟨rest, rfl⟩
    rw [encoded_append]
    exact List.prefix_append _ _

theorem infix_encoded_iff (ds cs : List Char) : encoded ds <:+: encoded cs ↔ ds <:+: cs := by
  constructor
  · rintro ⟨front, us, h⟩
    by_cases hds : ds = []
    · rw [hds]
      exact List.nil_infix
    · rw [List.append_assoc] at h
      obtain ⟨left, right, rfl, hright⟩ := exists_append_of_encoded_append hds h.symm
      have hprefix := prefix_of_encoded_append hright.symm
      exact hprefix.isInfix.trans (List.suffix_append left right).isInfix
  · rintro ⟨left, rest, rfl⟩
    rw [encoded_append, encoded_append]
    exact List.infix_append _ _ _

theorem suffix_encoded_iff (ds cs : List Char) : encoded ds <:+ encoded cs ↔ ds <:+ cs := by
  constructor
  · rintro ⟨front, h⟩
    by_cases hds : ds = []
    · rw [hds]
      exact List.nil_suffix
    · rw [← List.append_nil (encoded ds)] at h
      obtain ⟨left, right, rfl, hright⟩ := exists_append_of_encoded_append hds h.symm
      rw [List.append_nil] at hright
      -- the bytes are the same, so each text is a prefix of the other
      have hforth : ds <+: right := (prefix_encoded_iff ds right).1 ⟨[], by simp [hright]⟩
      have hback : right <+: ds := (prefix_encoded_iff right ds).1 ⟨[], by simp [hright]⟩
      have hlength := Nat.le_antisymm hforth.length_le hback.length_le
      rw [hforth.eq_of_length hlength]
      exact List.suffix_append left right
  · rintro ⟨left, rfl⟩
    rw [encoded_append]
    exact List.suffix_append _ _

theorem utf8Bytes_eq_encoded (s : String) : utf8Bytes s = encoded s.toList :=
  utf8Bytes_eq_flatMap s

end Bytes

/-! ## Calls -/

namespace Texts

open Builtin
open Segment (OccursAt)

variable {s t : String} {m n i j : Int64}

theorem decides_startsWith (s t : String) :
    Decides "starts_with" [.string s, .string t] (t.toList <+: s.toList) :=
  ⟨_, gives_of_run rfl rfl fun _ => rfl, List.isPrefixOf_iff_prefix⟩

theorem decides_endsWith (s t : String) :
    Decides "ends_with" [.string s, .string t] (t.toList <:+ s.toList) :=
  ⟨_, gives_of_run rfl rfl fun _ => rfl, List.isSuffixOf_iff_suffix⟩

theorem decides_contains (s t : String) :
    Decides "contains" [.string s, .string t] (t.toList <:+: s.toList) :=
  ⟨_, gives_of_run rfl rfl fun _ => rfl, Segment.occurs_iff_infix t.toList s.toList⟩

/-- `substring` cuts a text out where it occurs. -/
theorem gives_substring_iff (h : IsRange i j s.toList.length)
    (hj : j.toInt = i.toInt + t.toList.length) :
    Gives "substring" [.string s, .int i, .int j] (.ok (.string t)) ↔
      OccursAt t.toList s.toList i.toInt.toNat := by
  have hnonneg := h.nonneg
  have hlength : j.toInt.toNat - i.toInt.toNat = t.toList.length := by omega
  have hcut : textBetween s i j = t ↔ OccursAt t.toList s.toList i.toInt.toNat := by
    unfold OccursAt
    rw [List.prefix_iff_eq_take, ← String.toList_inj, textBetween, String.toList_ofList, between,
      List.drop_take, hlength, eq_comm]
  have hsubstring := gives_substring h
  rw [← hcut]
  constructor
  · intro hgives
    cases hgives.unique hsubstring
    rfl
  · intro heq
    rwa [heq] at hsubstring

theorem prefix_iff_substring (hm : m.toInt = s.toList.length) (hn : n.toInt = t.toList.length) :
    t.toList <+: s.toList ↔
      n ≤ m ∧ Gives "substring" [.string s, .int 0, .int n] (.ok (.string t)) := by
  have hzero : (0 : Int64).toInt = 0 := rfl
  rw [Int64.le_iff_toInt_le]
  constructor
  · intro hprefix
    have hle := hprefix.length_le
    have hrange : IsRange 0 n s.toList.length := ⟨by omega, by omega, by omega⟩
    exact ⟨by omega, (gives_substring_iff hrange (by omega)).2 hprefix⟩
  · rintro ⟨hle, hgives⟩
    have hrange : IsRange 0 n s.toList.length := ⟨by omega, by omega, by omega⟩
    exact (gives_substring_iff hrange (by omega)).1 hgives

theorem suffix_iff_substring (hm : m.toInt = s.toList.length) (hn : n.toInt = t.toList.length) :
    t.toList <:+ s.toList ↔ n ≤ m ∧ ∃ k : Int64, k.toInt = m.toInt - n.toInt ∧
      Gives "substring" [.string s, .int k, .int m] (.ok (.string t)) := by
  have hlt := m.toInt_lt
  rw [Int64.le_iff_toInt_le]
  constructor
  · intro hsuffix
    have hle := hsuffix.length_le
    have hfits : Checked.Fits (m.toInt - n.toInt) := ⟨by omega, by omega⟩
    obtain ⟨k, hk⟩ : ∃ k : Int64, k.toInt = m.toInt - n.toInt := ⟨_, Checked.toInt_ofInt hfits⟩
    have hrange : IsRange k m s.toList.length := ⟨by omega, by omega, by omega⟩
    refine ⟨by omega, k, hk, (gives_substring_iff hrange (by omega)).2 ?_⟩
    exact (Segment.suffix_iff_occursAt (by omega)).1 hsuffix
  · rintro ⟨hle, k, hk, hgives⟩
    have hrange : IsRange k m s.toList.length := ⟨by omega, by omega, by omega⟩
    have hat := (gives_substring_iff hrange (by omega)).1 hgives
    exact (Segment.suffix_iff_occursAt (by omega)).2 hat

theorem infix_iff_substring (hm : m.toInt = s.toList.length) (hn : n.toInt = t.toList.length) :
    t.toList <:+: s.toList ↔ ∃ i j : Int64, 0 ≤ i.toInt ∧ i.toInt ≤ m.toInt - n.toInt ∧
      j.toInt = i.toInt + n.toInt ∧
      Gives "substring" [.string s, .int i, .int j] (.ok (.string t)) := by
  have hlt := m.toInt_lt
  rw [Segment.infix_iff_occursAt]
  constructor
  · rintro ⟨p, hp, hat⟩
    have hfits : Checked.Fits (p : ℤ) := ⟨by omega, by omega⟩
    have hfits' : Checked.Fits (p + n.toInt) := ⟨by omega, by omega⟩
    obtain ⟨i, hi⟩ : ∃ i : Int64, i.toInt = p := ⟨_, Checked.toInt_ofInt hfits⟩
    obtain ⟨j, hj⟩ : ∃ j : Int64, j.toInt = p + n.toInt := ⟨_, Checked.toInt_ofInt hfits'⟩
    have hrange : IsRange i j s.toList.length := ⟨by omega, by omega, by omega⟩
    have hposition : i.toInt.toNat = p := by omega
    refine ⟨i, j, by omega, by omega, by omega, (gives_substring_iff hrange (by omega)).2 ?_⟩
    rwa [hposition]
  · rintro ⟨i, j, hnonneg, hle, hj, hgives⟩
    have hrange : IsRange i j s.toList.length := ⟨by omega, by omega, by omega⟩
    exact ⟨i.toInt.toNat, by omega, (gives_substring_iff hrange (by omega)).1 hgives⟩

theorem infix_iff_split (ht : t ≠ "") : t.toList <:+: s.toList ↔ ∃ parts,
    Gives "split" [.string s, .string t] (.ok (.list parts)) ∧ 1 < parts.length := by
  have hsplit := gives_split s t
  have hlength : 1 < (splitTexts s t).length ↔ t.toList <:+: s.toList := by
    rw [← Segment.occurs_iff_infix, ← Segment.one_lt_length_parts_iff (toList_ne_nil ht),
      splitTexts, List.length_map, Segment.split, dif_neg (toList_ne_nil ht)]
  rw [← hlength]
  constructor
  · intro hlt
    exact ⟨_, hsplit, by rwa [List.length_map]⟩
  · rintro ⟨parts, hparts, hlt⟩
    cases hparts.unique hsplit
    rwa [List.length_map] at hlt

theorem infix_iff_add : t.toList <:+: s.toList ↔ ∃ a b front : String,
    Gives "Add" [.string a, .string t] (.ok (.string front)) ∧
    Gives "Add" [.string front, .string b] (.ok (.string s)) := by
  constructor
  · rintro ⟨before, behind, h⟩
    have hs : .ofList before ++ t ++ .ofList behind = s := by
      apply String.toList_inj.1
      simp only [String.toList_append, String.toList_ofList, h]
    refine ⟨.ofList before, .ofList behind, _, gives_add _ t, ?_⟩
    have hadd := gives_add (.ofList before ++ t) (.ofList behind)
    rwa [hs] at hadd
  · rintro ⟨a, b, front, hfront, hs⟩
    cases hfront.unique (gives_add a t)
    cases hs.unique (gives_add (a ++ t) b)
    rw [String.toList_append, String.toList_append]
    exact List.infix_append _ _ _

/-- What the predicates on two texts answer, of which `m` and `n` are the lengths. -/
structure PredicateLaws (s t : String) (m n : Int64) : Prop where
  lengths : Gives "len" [.string s] (.ok (.int m)) ∧ Gives "len" [.string t] (.ok (.int n))
  startsWith : Decides "starts_with" [.string s, .string t]
    (n ≤ m ∧ Gives "substring" [.string s, .int 0, .int n] (.ok (.string t)))
  endsWith : Decides "ends_with" [.string s, .string t]
    (n ≤ m ∧ ∃ k : Int64, k.toInt = m.toInt - n.toInt ∧
      Gives "substring" [.string s, .int k, .int m] (.ok (.string t)))
  contains : Decides "contains" [.string s, .string t]
    (∃ i j : Int64, 0 ≤ i.toInt ∧ i.toInt ≤ m.toInt - n.toInt ∧ j.toInt = i.toInt + n.toInt ∧
      Gives "substring" [.string s, .int i, .int j] (.ok (.string t)))
  /-- A text that is not empty is contained exactly if there is something to cut at. -/
  cut : t ≠ "" → Decides "contains" [.string s, .string t]
    (∃ parts, Gives "split" [.string s, .string t] (.ok (.list parts)) ∧ 1 < parts.length)
  /-- A text is contained exactly if others can be joined around it. -/
  joined : Decides "contains" [.string s, .string t]
    (∃ a b front : String, Gives "Add" [.string a, .string t] (.ok (.string front)) ∧
      Gives "Add" [.string front, .string b] (.ok (.string s)))
  /-- The bytes of the texts show the same. -/
  bytes : Decides "starts_with" [.string s, .string t] (utf8Bytes t <+: utf8Bytes s) ∧
    Decides "ends_with" [.string s, .string t] (utf8Bytes t <:+ utf8Bytes s) ∧
    Decides "contains" [.string s, .string t] (utf8Bytes t <:+: utf8Bytes s)

/-- The predicates agree with the positions in a text, with its parts and with its bytes. The
lengths of texts that fit in memory are integers of the language. -/
theorem predicateLaws (hm : m.toInt = s.toList.length) (hn : n.toInt = t.toList.length) :
    PredicateLaws s t m n := by
  have hstarts := decides_startsWith s t
  have hends := decides_endsWith s t
  have hcontains := decides_contains s t
  constructor
  · exact ⟨gives_len hm, gives_len hn⟩
  · exact hstarts.congr (prefix_iff_substring hm hn)
  · exact hends.congr (suffix_iff_substring hm hn)
  · exact hcontains.congr (infix_iff_substring hm hn)
  · intro ht
    exact hcontains.congr (infix_iff_split ht)
  · exact hcontains.congr infix_iff_add
  · rw [utf8Bytes_eq_encoded, utf8Bytes_eq_encoded]
    exact ⟨hstarts.congr (prefix_encoded_iff _ _).symm, hends.congr (suffix_encoded_iff _ _).symm,
      hcontains.congr (infix_encoded_iff _ _).symm⟩

/-- A text that overlaps itself, of characters of several widths. -/
theorem predicateLaws_overlapping :
    (5 : Int64).toInt = "aéaéa".toList.length ∧ (3 : Int64).toInt = "aéa".toList.length ∧
      PredicateLaws "aéaéa" "aéa" 5 3 :=
  ⟨by decide, by decide, predicateLaws (by decide) (by decide)⟩

end Texts

end ScriptValues
