import Mathlib.Data.List.Infix
import Mathlib.Data.List.Sort
import ScriptValues.Proofs.NamedCalls

/-!
# Splitting, joining and replacing texts

A text is cut at the leftmost occurrences of a separator that do not overlap. The parts lie between
them, so joining the parts gives the text back, and joining them with another text replaces the
separator. An empty separator cuts between all characters; an empty text is replaced around every
character.

* `Segment.Leftmost`: the occurrences that are cut out, of which there is only one choice.
* `Segment.exists_cuts`: what the search loop finds are these.
* `Texts.cuttingLaws`: every call of `split`, `join` and `replace` on texts.
-/

namespace ScriptValues

namespace Segment

variable {t cs before rest part : List Char} {cuts cuts' : List Nat} {i j : Nat}

/-! ## Occurrences -/

/-- A text begins at this position of another. -/
def OccursAt (t cs : List Char) (i : Nat) : Prop := t <+: cs.drop i

theorem occursAt_append {front : List Char} :
    OccursAt t (front ++ cs) (front.length + i) ↔ OccursAt t cs i := by
  unfold OccursAt
  rw [List.drop_length_add_append]

theorem exists_occursAt_of_infix (h : t <:+: part) :
    ∃ i, i + t.length ≤ part.length ∧ ∀ rest, OccursAt t (part ++ rest) i := by
  obtain ⟨front, back, rfl⟩ := h
  refine ⟨front.length, by simp, fun rest => ?_⟩
  unfold OccursAt
  rw [List.append_assoc, List.append_assoc, List.drop_left]
  exact List.prefix_append t (back ++ rest)

theorem dropLeading?_append (t rest : List Char) : dropLeading? t (t ++ rest) = some rest := by
  induction t with
  | nil => rfl
  | cons c t ih => simp [dropLeading?, ih]

theorem not_prefix_of_dropLeading? (h : dropLeading? t cs = none) : ¬ t <+: cs := by
  rintro ⟨rest, rfl⟩
  rw [dropLeading?_append] at h
  cases h

/-- Where nothing is cut, there is no occurrence. -/
theorem not_occursAt_of_uncut (h : cut? t cs = none) : ¬ OccursAt t cs i := by
  induction cs generalizing i with
  | nil =>
    unfold OccursAt
    rw [List.drop_nil]
    exact not_prefix_of_dropLeading? (Option.map_eq_none_iff.1 h)
  | cons c cs ih =>
    simp only [cut?] at h
    split at h
    · cases h
    · next hd =>
      cases i with
      | zero => exact not_prefix_of_dropLeading? hd
      | succ i => exact ih (Option.map_eq_none_iff.1 h)

/-- There is no occurrence before the first cut. -/
theorem not_occursAt_of_cut? (h : cut? t cs = some (before, rest)) (hi : i < before.length) :
    ¬ OccursAt t cs i := by
  induction cs generalizing before i with
  | nil =>
    obtain ⟨r, -, he⟩ := Option.map_eq_some_iff.1 h
    cases he
    simp at hi
  | cons c cs ih =>
    simp only [cut?] at h
    split at h
    · cases h
      simp at hi
    · next hd =>
      obtain ⟨⟨b, r⟩, hb, he⟩ := Option.map_eq_some_iff.1 h
      cases he
      cases i with
      | zero => exact not_prefix_of_dropLeading? hd
      | succ i => exact ih hb (Nat.lt_of_succ_lt_succ hi)

/-! ## The leftmost occurrences that do not overlap -/

/-- The positions at which a text is cut out of another. -/
structure Leftmost (t cs : List Char) (cuts : List Nat) : Prop where
  occurs : ∀ i ∈ cuts, OccursAt t cs i
  /-- They stand in order and do not overlap. -/
  apart : cuts.Pairwise fun i j => i + t.length ≤ j
  /-- An occurrence is passed over only if it overlaps one that is cut out further left. -/
  leftmost : ∀ j, OccursAt t cs j → ∃ i ∈ cuts, i ≤ j ∧ j < i + t.length

theorem leftmost_nil (h : cut? t cs = none) : Leftmost t cs [] where
  occurs := nofun
  apart := .nil
  leftmost := fun _ hj => absurd hj (not_occursAt_of_uncut h)

/-- The first occurrence is cut out, and then those of the text behind it. -/
theorem Leftmost.cons (h : cut? t cs = some (before, rest)) (hrest : Leftmost t rest cuts) :
    Leftmost t cs (before.length :: cuts.map ((before ++ t).length + ·)) := by
  have hcs : cs = before ++ t ++ rest := by rw [append_of_cut? h, List.append_assoc]
  constructor
  · intro i hi
    rcases List.mem_cons.1 hi with rfl | hi
    · unfold OccursAt
      rw [hcs, List.append_assoc, List.drop_left]
      exact List.prefix_append t rest
    · obtain ⟨k, hk, rfl⟩ := List.mem_map.1 hi
      rw [hcs]
      exact occursAt_append.2 (hrest.occurs k hk)
  · apply List.pairwise_cons.2
    constructor
    · intro j hj
      obtain ⟨k, -, rfl⟩ := List.mem_map.1 hj
      rw [List.length_append]
      omega
    · apply List.pairwise_map.2
      exact hrest.apart.imp fun hij => by omega
  · intro j hj
    have hbefore : before.length ≤ j := by
      by_contra hlt
      exact not_occursAt_of_cut? h (Nat.lt_of_not_le hlt) hj
    by_cases hfirst : j < before.length + t.length
    · exact ⟨before.length, List.mem_cons_self, hbefore, hfirst⟩
    · obtain ⟨k, rfl⟩ : ∃ k, j = (before ++ t).length + k :=
        Nat.exists_eq_add_of_le (by rw [List.length_append]; omega)
      rw [hcs] at hj
      obtain ⟨i, hi, hle, hlt⟩ := hrest.leftmost k (occursAt_append.1 hj)
      exact ⟨_, List.mem_cons_of_mem _ (List.mem_map_of_mem hi), by omega, by omega⟩

theorem Leftmost.apart_of_lt (h : Leftmost t cs cuts) (hi : i ∈ cuts) (hj : j ∈ cuts)
    (hij : i < j) : i + t.length ≤ j := by
  obtain ⟨a, ha, rfl⟩ := List.getElem_of_mem hi
  obtain ⟨b, hb, rfl⟩ := List.getElem_of_mem hj
  have happart := List.pairwise_iff_getElem.1 h.apart
  rcases Nat.lt_trichotomy a b with hab | rfl | hba
  · exact happart a b ha hb hab
  · omega
  · have hle := happart b a hb ha hba
    omega

/-- Whether an occurrence is cut out depends only on what is cut out further left. -/
theorem Leftmost.mem_iff (h : Leftmost t cs cuts) :
    j ∈ cuts ↔ OccursAt t cs j ∧ ∀ i < j, i ∈ cuts → i + t.length ≤ j := by
  constructor
  · intro hj
    exact ⟨h.occurs j hj, fun i hij hi => h.apart_of_lt hi hj hij⟩
  · rintro ⟨hj, hleft⟩
    obtain ⟨i, hi, hle, hlt⟩ := h.leftmost j hj
    rcases Nat.eq_or_lt_of_le hle with rfl | hij
    · exact hi
    · have hapart := hleft i hij hi
      omega

/-- There is only one choice of what is cut out. -/
theorem Leftmost.unique (ht : t ≠ []) (h : Leftmost t cs cuts) (h' : Leftmost t cs cuts') :
    cuts = cuts' := by
  have hpos := List.length_pos_iff.2 ht
  have ascending {l : List Nat} (hl : Leftmost t cs l) : l.Pairwise (· < ·) :=
    hl.apart.imp fun hij => by omega
  apply (ascending h).eq_of_mem_iff (ascending h')
  intro j
  -- whatever is cut out further left is the same
  induction j using Nat.strong_induction_on with
  | h j ih =>
    rw [h.mem_iff, h'.mem_iff]
    apply and_congr_right
    intro _
    constructor
    · intro hleft i hij hi
      exact hleft i hij ((ih i hij).2 hi)
    · intro hleft i hij hi
      exact hleft i hij ((ih i hij).1 hi)

/-! ## The parts between the cuts -/

/-- The parts of a text from `start` on, between cuts of one width. -/
def pieces (cs : List Char) (width : Nat) : Nat → List Nat → List (List Char)
  | start, [] => [cs.drop start]
  | start, i :: rest => (cs.take i).drop start :: pieces cs width (i + width) rest

theorem pieces_append (front cs : List Char) (width start : Nat) (cuts : List Nat) :
    pieces (front ++ cs) width (front.length + start) (cuts.map (front.length + ·)) =
      pieces cs width start cuts := by
  induction cuts generalizing start with
  | nil =>
    show [(front ++ cs).drop (front.length + start)] = [cs.drop start]
    rw [List.drop_length_add_append]
  | cons i rest ih =>
    simp only [List.map_cons, pieces]
    rw [List.take_length_add_append, List.drop_length_add_append, Nat.add_assoc, ih]

/-- The search loop cuts at the leftmost occurrences. -/
theorem exists_cuts (ht : t ≠ []) (cs : List Char) :
    ∃ cuts, Leftmost t cs cuts ∧ parts t ht cs = pieces cs t.length 0 cuts := by
  fun_induction parts t ht cs with
  | case1 cs h => exact ⟨[], leftmost_nil h, rfl⟩
  | case2 cs before rest h ih =>
    obtain ⟨cuts, hcuts, hparts⟩ := ih
    refine ⟨_, hcuts.cons h, ?_⟩
    have hcs : cs = before ++ t ++ rest := by rw [append_of_cut? h, List.append_assoc]
    have hlater := pieces_append (before ++ t) rest t.length 0 cuts
    rw [← hcs, Nat.add_zero, List.length_append] at hlater
    show before :: parts t ht rest = (cs.take before.length).drop 0 :: _
    rw [hparts, ← hlater, List.length_append, List.drop_zero, append_of_cut? h, List.take_left]

theorem parts_ne_nil (ht : t ≠ []) (cs : List Char) : parts t ht cs ≠ [] := by
  unfold parts
  split <;> simp

/-- Joining the parts gives the text back. -/
theorem intercalate_parts (ht : t ≠ []) (cs : List Char) : t.intercalate (parts t ht cs) = cs := by
  fun_induction parts t ht cs with
  | case1 cs h => exact List.intercalate_singleton
  | case2 cs before rest h ih =>
    rw [List.intercalate_cons_of_ne_nil (parts_ne_nil ht rest), ih, List.append_assoc]
    exact (append_of_cut? h).symm

/-- No part contains the separator. -/
theorem not_infix_of_mem_parts (ht : t ≠ []) (h : part ∈ parts t ht cs) : ¬ t <:+: part := by
  intro hinfix
  obtain ⟨i, hlength, hoccurs⟩ := exists_occursAt_of_infix hinfix
  fun_induction parts t ht cs with
  | case1 cs hcut =>
    obtain rfl := List.mem_singleton.1 h
    apply not_occursAt_of_uncut hcut (i := i)
    simpa using hoccurs []
  | case2 cs before rest hcut ih =>
    rcases List.mem_cons.1 h with rfl | h
    · have hpos := List.length_pos_iff.2 ht
      apply not_occursAt_of_cut? hcut (i := i) (by omega)
      rw [append_of_cut? hcut]
      exact hoccurs _
    · exact ih h

/-! ## The empty separator -/

theorem intercalate_chars (cs : List Char) : [].intercalate (cs.map ([·])) = cs := by
  induction cs with
  | nil => rfl
  | cons c cs ih =>
    cases cs with
    | nil => rfl
    | cons d cs =>
      rw [List.map_cons, List.intercalate_cons_of_ne_nil (by simp), ih]
      rfl

/-- Joining the parts gives the text back, whatever the separator is. -/
theorem intercalate_split (cs separator : List Char) :
    separator.intercalate (split cs separator) = cs := by
  unfold split
  split
  · next h =>
    rw [h]
    exact intercalate_chars cs
  · next h => exact intercalate_parts h cs

/-- Replacing the empty text puts another before every character and one at the end. -/
theorem replace_nil (cs new : List Char) :
    replace cs [] new = cs.flatMap (fun c => new ++ [c]) ++ new := by
  show cs.foldr (fun c rest => new ++ c :: rest) new = _
  induction cs with
  | nil => rfl
  | cons c cs ih => simp [ih]

/-- Replacing a text joins the parts between its occurrences. -/
theorem replace_of_ne_nil {old : List Char} (h : old ≠ []) (cs new : List Char) :
    replace cs old new = new.intercalate (split cs old) := by
  unfold replace split
  rw [dif_neg h, dif_neg h]

end Segment

/-! ## Calls -/

namespace Texts

open Builtin

/-- A text is cut at the leftmost occurrences of a separator that do not overlap, and the parts are
what lies between them. -/
structure Cuts (s separator : String) (texts : List String) : Prop where
  positions : ∃ cuts, Segment.Leftmost separator.toList s.toList cuts ∧
    (∀ cuts', Segment.Leftmost separator.toList s.toList cuts' → cuts' = cuts) ∧
    texts.map String.toList = Segment.pieces s.toList separator.toList.length 0 cuts
  nonempty : texts ≠ []
  separated : ∀ part ∈ texts, ¬ separator.toList <:+: part.toList

structure CuttingLaws (s separator new : String) : Prop where
  /-- Joining the parts gives the text back. -/
  rejoined : ∃ parts, Gives "split" [.string s, .string separator] (.ok parts) ∧
    Gives "join" [parts, .string separator] (.ok (.string s))
  /-- A separator cuts at its occurrences. -/
  cut : separator ≠ "" → ∃ texts,
    Gives "split" [.string s, .string separator] (.ok (.list (texts.map .string))) ∧
    Cuts s separator texts
  /-- The empty separator cuts between all characters. -/
  cutChars : separator = "" →
    Gives "split" [.string s, .string separator]
      (.ok (.list (s.toList.map fun c => .string (.singleton c))))
  /-- Replacing a text is joining the parts between its occurrences with the new one. -/
  replaced : separator ≠ "" → ∃ parts r,
    Gives "split" [.string s, .string separator] (.ok parts) ∧
    Gives "join" [parts, .string new] (.ok r) ∧
    Gives "replace" [.string s, .string separator, .string new] (.ok r)
  /-- Replacing the empty text puts the new one before every character and one at the end. -/
  replacedAround : separator = "" →
    Gives "replace" [.string s, .string separator, .string new]
      (.ok (.string (.ofList (s.toList.flatMap (fun c => new.toList ++ [c]) ++ new.toList))))

variable {s separator : String}

def splitTexts (s separator : String) : List String :=
  (Segment.split s.toList separator.toList).map .ofList

theorem map_toList_splitTexts (s separator : String) :
    (splitTexts s separator).map String.toList = Segment.split s.toList separator.toList := by
  unfold splitTexts
  rw [List.map_map]
  apply List.map_id''
  exact fun _ => String.toList_ofList

/-- The empty separator makes a text of every character. -/
theorem splitTexts_empty (s : String) : splitTexts s "" = s.toList.map .singleton := by
  show (s.toList.map ([·])).map String.ofList = _
  rw [List.map_map]
  apply List.map_congr_left
  intro c _
  exact String.singleton_eq_ofList.symm

theorem gives_split (s separator : String) :
    Gives "split" [.string s, .string separator]
      (.ok (.list ((splitTexts s separator).map .string))) := by
  unfold splitTexts
  rw [List.map_map]
  exact gives_of_run rfl rfl fun _ => rfl

theorem gives_split_empty (s : String) :
    Gives "split" [.string s, .string ""]
      (.ok (.list (s.toList.map fun c => .string (.singleton c)))) := by
  have hsplit := gives_split s ""
  rwa [splitTexts_empty, List.map_map] at hsplit

theorem gives_join (texts : List String) (separator : String) :
    Gives "join" [.list (texts.map .string), .string separator]
      (.ok (.string (separator.intercalate texts))) := by
  apply gives_of_run rfl rfl
  intro resolved
  show Except.ok (Value.string (separator.intercalate
    ((texts.map .string).map (Value.inspect resolved)))) = _
  rw [List.map_map]
  have hinspect : Value.inspect resolved ∘ Value.string = id := rfl
  rw [hinspect, List.map_id]

theorem gives_replace (s old new : String) :
    Gives "replace" [.string s, .string old, .string new]
      (.ok (.string (.ofList (Segment.replace s.toList old.toList new.toList)))) :=
  gives_of_run rfl rfl fun _ => rfl

theorem toList_ne_nil (h : separator ≠ "") : separator.toList ≠ [] :=
  fun hnil => h (String.toList_eq_nil_iff.1 hnil)

theorem cuts_splitTexts (h : separator ≠ "") : Cuts s separator (splitTexts s separator) := by
  have ht := toList_ne_nil h
  have hsplit : Segment.split s.toList separator.toList =
      Segment.parts separator.toList ht s.toList := dif_neg ht
  have hmap := map_toList_splitTexts s separator
  rw [hsplit] at hmap
  constructor
  · obtain ⟨cuts, hcuts, hparts⟩ := Segment.exists_cuts ht s.toList
    exact ⟨cuts, hcuts, fun cuts' h' => h'.unique ht hcuts, hmap.trans hparts⟩
  · intro hnil
    apply Segment.parts_ne_nil ht s.toList
    rw [← hmap, hnil, List.map_nil]
  · intro part hpart
    have hmem := List.mem_map_of_mem (f := String.toList) hpart
    rw [hmap] at hmem
    exact Segment.not_infix_of_mem_parts ht hmem

theorem intercalate_splitTexts (s separator : String) :
    separator.intercalate (splitTexts s separator) = s := by
  apply String.toList_inj.1
  rw [String.toList_intercalate, map_toList_splitTexts, Segment.intercalate_split]

/-- Cutting, joining and replacing agree on all texts. -/
theorem cuttingLaws (s separator new : String) : CuttingLaws s separator new := by
  constructor
  · refine ⟨_, gives_split s separator, ?_⟩
    have hjoin := gives_join (splitTexts s separator) separator
    rwa [intercalate_splitTexts] at hjoin
  · intro h
    exact ⟨_, gives_split s separator, cuts_splitTexts h⟩
  · rintro rfl
    exact gives_split_empty s
  · intro h
    refine ⟨_, _, gives_split s separator, gives_join _ new, ?_⟩
    have hreplace := gives_replace s separator new
    rw [Segment.replace_of_ne_nil (toList_ne_nil h), ← map_toList_splitTexts,
      ← String.toList_intercalate, String.ofList_toList] at hreplace
    exact hreplace
  · rintro rfl
    have hreplace := gives_replace s "" new
    have hnil : "".toList = [] := rfl
    rwa [hnil, Segment.replace_nil] at hreplace

end Texts

end ScriptValues
