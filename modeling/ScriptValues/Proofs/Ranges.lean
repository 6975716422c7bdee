import ScriptValues.Proofs.Signatures
import ScriptValues.Proofs.SplitTexts

/-!
# Ranges of positions

`slice` and `substring` take two bounds of a half-open range of positions, which has to lie in the
list or in the text; `ListSlice` takes any two bounds and brings them into the list first. The
positions of a text count its characters, so a text is cut where the list of its characters is.

* `IsRange`, `IsPart`: the bounds of a range, and what lies in it.
* `Lists.sliceLaws`: every call of `slice` and `ListSlice` on a list and two integers.
* `Texts.substringLaws`: every call of `substring` on a text and two integers.
-/

namespace ScriptValues

open Builtin

/-! ## Ranges and parts -/

/-- Two integers are the bounds of a half-open range of positions up to a length. -/
structure IsRange (start stop : Int64) (length : Nat) : Prop where
  nonneg : 0 ≤ start.toInt
  ordered : start.toInt ≤ stop.toInt
  within : stop.toInt ≤ length

/-- The elements of a list at the positions `start`, …, `stop - 1`, in their order. -/
structure IsPart {α : Type} (items : List α) (start stop : Int64) (part : List α) : Prop where
  length : (part.length : Int) = stop.toInt - start.toInt
  element : ∀ p < part.length, part[p]? = items[start.toInt.toNat + p]?

/-- An integer brought into the positions up to a length. -/
def Clamped (n : Int64) (length : Nat) (m : Int64) : Prop := m.toInt = max 0 (min n.toInt length)

variable {α : Type} {items : List α} {start stop k : Int64} {n : Nat}

theorem outOfBounds_iff : Texts.outOfBounds start stop n ↔ ¬ IsRange start stop n := by
  constructor
  · intro h hrange
    unfold Texts.outOfBounds at h
    simp only [Bool.or_eq_true, decide_eq_true_eq, Int64.lt_iff_toInt_lt] at h
    have hzero : (0 : Int64).toInt = 0 := rfl
    have hnonneg := hrange.nonneg
    have hordered := hrange.ordered
    have hwithin := hrange.within
    omega
  · intro h
    by_contra hout
    obtain ⟨hnonneg, hordered, hwithin⟩ := Texts.bounds_of_not_outOfBounds hout
    exact h ⟨hnonneg, hordered, hwithin⟩

theorem IsRange.not_outOfBounds (h : IsRange start stop n) : ¬ Texts.outOfBounds start stop n :=
  fun hout => outOfBounds_iff.1 hout h

def between (items : List α) (start stop : Int64) : List α :=
  (items.take stop.toInt.toNat).drop start.toInt.toNat

theorem isPart_between (h : IsRange start stop items.length) :
    IsPart items start stop (between items start stop) := by
  have hnonneg := h.nonneg
  have hordered := h.ordered
  have hwithin := h.within
  have hlength : (between items start stop).length = stop.toInt.toNat - start.toInt.toNat := by
    unfold between
    rw [List.length_drop, List.length_take]
    omega
  constructor
  · omega
  · intro p hp
    unfold between
    rw [List.getElem?_drop, List.getElem?_take, if_pos (by omega)]

theorem between_eq_nil (h : stop.toInt ≤ start.toInt) : between items start stop = [] := by
  unfold between
  apply List.drop_eq_nil_of_le
  rw [List.length_take]
  omega

/-- The part before a position and the part behind it make up the list. -/
theorem between_append_between {length : Int64} (h : length.toInt = items.length) (k : Int64) :
    between items 0 k ++ between items k length = items := by
  have hall : items.take length.toInt.toNat = items := List.take_of_length_le (by omega)
  unfold between
  rw [hall]
  exact List.take_append_drop k.toInt.toNat items

theorem exists_clamped (n : Int64) (length : Nat) : ∃ m, Clamped n length m := by
  have hlt := n.toInt_lt
  have hfits : Checked.Fits (max 0 (min n.toInt length)) := ⟨by omega, by omega⟩
  exact ⟨_, Checked.toInt_ofInt hfits⟩

/-- Behind a position there is the range up to the end. -/
theorem IsRange.rest (hk : IsRange 0 k n) {length : Int64} (h : length.toInt = n) :
    IsRange k length n := by
  have hwithin := hk.within
  exact ⟨hk.ordered, by omega, by omega⟩

/-- An integer that is a length is what the length becomes as an integer. -/
theorem ofNat_eq {length : Int64} (h : length.toInt = n) : Int64.ofNat n = length := by
  show Int64.ofInt n = length
  rw [← h, Int64.ofInt_toInt]

/-! ## Lists -/

namespace Lists

variable {items : List Value} {start stop : Int64}

theorem gives_slice (h : IsRange start stop items.length) :
    Gives "slice" [.list items, .int start, .int stop]
      (.ok (.list (between items start stop))) := by
  apply gives_of_run rfl rfl
  intro _
  show (if Texts.outOfBounds start stop items.length then _ else _) = _
  obtain ⟨hstart, hstop, hle, hin⟩ := positions_of_not_outOfBounds h.not_outOfBounds
  rw [if_neg h.not_outOfBounds, hstart, hstop, Result.ok_bind, Result.ok_bind,
    InRange.slice_of_le hle hin]
  rfl

theorem gives_slice_bounds (h : ¬ IsRange start stop items.length) :
    Gives "slice" [.list items, .int start, .int stop]
      (.error (.failure ⟨"slice", .bounds start stop items.length⟩)) := by
  apply gives_of_run rfl rfl
  intro _
  show (if Texts.outOfBounds start stop items.length then _ else _) = _
  rw [if_pos (outOfBounds_iff.2 h)]
  rfl

theorem succeeds_slice_iff : Succeeds "slice" [.list items, .int start, .int stop] ↔
    IsRange start stop items.length :=
  succeeds_iff (fun h => ⟨_, gives_slice h⟩) gives_slice_bounds

/-- `ListSlice` cuts between the bounds that were brought into the list. -/
theorem gives_clampedSlice {s e : Int64} (hs : Clamped start items.length s)
    (he : Clamped stop items.length e) :
    Gives "ListSlice" [.list items, .int start, .int stop] (.ok (.list (between items s e))) := by
  unfold Clamped at hs he
  have hstart : min start.toInt.toNat items.length = s.toInt.toNat := by omega
  have hstop : min stop.toInt.toNat items.length = e.toInt.toNat := by omega
  apply gives_of_run rfl rfl
  intro _
  show (clamp start items.length >>= fun _ => clamp stop items.length >>= fun _ => _) = _
  rw [clamp_eq, clamp_eq, Result.ok_bind, Result.ok_bind, hstart, hstop]
  split
  · next hle =>
    rw [between_eq_nil (by omega)]
    rfl
  · next hlt =>
    rw [InRange.slice_of_le (by omega) (by omega)]
    rfl

theorem gives_len {length : Int64} (h : length.toInt = items.length) :
    Gives "len" [.list items] (.ok (.int length)) := by
  rw [← ofNat_eq h]
  exact gives_of_run rfl rfl fun _ => rfl

theorem gives_concat (items others : List Value) :
    Gives "concat" [.list items, .list others] (.ok (.list (items ++ others))) :=
  gives_of_run rfl rfl fun _ => rfl

structure SliceLaws (items : List Value) (start stop : Int64) : Prop where
  succeeds : Succeeds "slice" [.list items, .int start, .int stop] ↔
    IsRange start stop items.length
  cut : IsRange start stop items.length → ∃ part,
    Gives "slice" [.list items, .int start, .int stop] (.ok (.list part)) ∧
    IsPart items start stop part
  /-- Other bounds are reported as they were given. -/
  fails : ¬ IsRange start stop items.length →
    Gives "slice" [.list items, .int start, .int stop]
      (.error (.failure ⟨"slice", .bounds start stop items.length⟩))
  /-- `ListSlice` cuts where `slice` cuts between the bounds brought into the list. If these are in
  the wrong order, there is nothing between them. -/
  clamped : ∃ s e, Clamped start items.length s ∧ Clamped stop items.length e ∧
    (s.toInt ≤ e.toInt → ∃ part,
      Gives "slice" [.list items, .int s, .int e] (.ok part) ∧
      Gives "ListSlice" [.list items, .int start, .int stop] (.ok part)) ∧
    (e.toInt < s.toInt →
      Gives "ListSlice" [.list items, .int start, .int stop] (.ok (.list [])))
  /-- `ListSlice` always answers, and where `slice` answers they agree. -/
  lenient : Succeeds "ListSlice" [.list items, .int start, .int stop]
  agree : ∀ part, Gives "slice" [.list items, .int start, .int stop] (.ok part) →
    Gives "ListSlice" [.list items, .int start, .int stop] (.ok part)
  /-- The length of a list that fits in memory is an integer of the language. The parts before and
  behind any position make up the list. -/
  rejoined : ∀ length : Int64, length.toInt = items.length →
    Gives "len" [.list items] (.ok (.int length)) ∧
    ∀ k, IsRange 0 k items.length → ∃ front back,
      Gives "slice" [.list items, .int 0, .int k] (.ok front) ∧
      Gives "slice" [.list items, .int k, .int length] (.ok back) ∧
      Gives "concat" [front, back] (.ok (.list items))

/-- The strict and the lenient way to cut a list agree, for every list and all bounds. -/
theorem sliceLaws (items : List Value) (start stop : Int64) : SliceLaws items start stop := by
  obtain ⟨s, hs⟩ := exists_clamped start items.length
  obtain ⟨e, he⟩ := exists_clamped stop items.length
  have hlenient := gives_clampedSlice hs he
  unfold Clamped at hs he
  constructor
  · exact succeeds_slice_iff
  · intro h
    exact ⟨_, gives_slice h, isPart_between h⟩
  · exact gives_slice_bounds
  · refine ⟨s, e, hs, he, ?_, ?_⟩
    · intro hle
      exact ⟨_, gives_slice ⟨by omega, hle, by omega⟩, hlenient⟩
    · intro hlt
      rwa [between_eq_nil (by omega)] at hlenient
  · exact ⟨_, hlenient⟩
  · intro part hpart
    have hrange := succeeds_slice_iff.1 ⟨part, hpart⟩
    have hnonneg := hrange.nonneg
    have hordered := hrange.ordered
    have hwithin := hrange.within
    obtain rfl : s = start := Int64.toInt_inj.1 (by omega)
    obtain rfl : e = stop := Int64.toInt_inj.1 (by omega)
    rwa [hpart.unique (gives_slice hrange)]
  · intro length hlength
    refine ⟨gives_len hlength, fun k hk => ?_⟩
    refine ⟨_, _, gives_slice hk, gives_slice (hk.rest hlength), ?_⟩
    have hconcat := gives_concat (between items 0 k) (between items k length)
    rwa [between_append_between hlength] at hconcat

end Lists

/-! ## Texts -/

namespace Texts

variable {s : String} {start stop : Int64}

def textBetween (s : String) (start stop : Int64) : String :=
  .ofList (between s.toList start stop)

/-- The characters of a text, each as a text of its own. -/
def characters (s : String) : List Value := s.toList.map fun c => .string (.singleton c)

theorem length_characters (s : String) : (characters s).length = s.toList.length :=
  List.length_map _

/-- The characters between two positions are those of the text between them. -/
theorem between_characters (s : String) (start stop : Int64) :
    between (characters s) start stop = characters (textBetween s start stop) := by
  unfold characters textBetween between
  rw [← List.map_take, ← List.map_drop, String.toList_ofList]

theorem gives_join_characters (s : String) :
    Gives "join" [.list (characters s), .string ""] (.ok (.string s)) := by
  have hjoin := gives_join (splitTexts s "") ""
  rwa [intercalate_splitTexts, splitTexts_empty, List.map_map] at hjoin

theorem gives_substring (h : IsRange start stop s.toList.length) :
    Gives "substring" [.string s, .int start, .int stop]
      (.ok (.string (textBetween s start stop))) := by
  apply gives_of_run rfl rfl
  intro _
  show (if outOfBounds start stop s.toList.length then _ else _) = _
  obtain ⟨m, hgap, hposition⟩ := position_gap h.nonneg h.ordered
  rw [if_neg h.not_outOfBounds, InRange.position_of_nonneg h.nonneg, hgap, Result.ok_bind,
    Result.ok_bind, hposition, Result.ok_bind]
  have htaken : (stop.toInt - start.toInt).toNat = stop.toInt.toNat - start.toInt.toNat := by
    have hnonneg := h.nonneg
    omega
  unfold textBetween between
  rw [List.drop_take, htaken]
  rfl

theorem gives_substring_bounds (h : ¬ IsRange start stop s.toList.length) :
    Gives "substring" [.string s, .int start, .int stop]
      (.error (.failure ⟨"substring", .bounds start stop s.toList.length⟩)) := by
  apply gives_of_run rfl rfl
  intro _
  show (if outOfBounds start stop s.toList.length then _ else _) = _
  rw [if_pos (outOfBounds_iff.2 h)]
  rfl

theorem gives_len {length : Int64} (h : length.toInt = s.toList.length) :
    Gives "len" [.string s] (.ok (.int length)) := by
  rw [← ofNat_eq h]
  exact gives_of_run rfl rfl fun _ => rfl

theorem gives_add (s t : String) :
    Gives "Add" [.string s, .string t] (.ok (.string (s ++ t))) := by
  refine ⟨⟨"Add", .arithmetic .add⟩, rfl, fun w => ?_⟩
  rw [tryCall_of_accepts rfl]
  exact Operation.arithmeticStep_run .add w

/-- The text before a position and the text behind it make up the text. -/
theorem textBetween_append_textBetween {length : Int64} (h : length.toInt = s.toList.length)
    (k : Int64) : textBetween s 0 k ++ textBetween s k length = s := by
  apply String.toList_inj.1
  unfold textBetween
  rw [String.toList_append, String.toList_ofList, String.toList_ofList,
    between_append_between h]

structure SubstringLaws (s : String) (start stop : Int64) : Prop where
  split : Gives "split" [.string s, .string ""] (.ok (.list (characters s)))
  succeeds : Succeeds "substring" [.string s, .int start, .int stop] ↔
    IsRange start stop s.toList.length
  slice_succeeds : Succeeds "slice" [.list (characters s), .int start, .int stop] ↔
    IsRange start stop s.toList.length
  /-- The text that is cut out joins the characters that are cut out. -/
  cut : IsRange start stop s.toList.length → ∃ part t,
    Gives "slice" [.list (characters s), .int start, .int stop] (.ok part) ∧
    Gives "join" [part, .string ""] (.ok (.string t)) ∧
    Gives "substring" [.string s, .int start, .int stop] (.ok (.string t)) ∧
    IsPart s.toList start stop t.toList
  /-- Other bounds are reported as they were given, with the number of characters. -/
  fails : ¬ IsRange start stop s.toList.length →
    Gives "slice" [.list (characters s), .int start, .int stop]
      (.error (.failure ⟨"slice", .bounds start stop s.toList.length⟩)) ∧
    Gives "substring" [.string s, .int start, .int stop]
      (.error (.failure ⟨"substring", .bounds start stop s.toList.length⟩))
  /-- The length of a text that fits in memory is an integer of the language. The texts before and
  behind any position make up the text. -/
  rejoined : ∀ length : Int64, length.toInt = s.toList.length →
    Gives "len" [.string s] (.ok (.int length)) ∧
    ∀ k, IsRange 0 k s.toList.length → ∃ front back,
      Gives "substring" [.string s, .int 0, .int k] (.ok front) ∧
      Gives "substring" [.string s, .int k, .int length] (.ok back) ∧
      Gives "Add" [front, back] (.ok (.string s))

/-- A text is cut where the list of its characters is, for every text and all bounds. -/
theorem substringLaws (s : String) (start stop : Int64) : SubstringLaws s start stop := by
  have hlength := length_characters s
  constructor
  · exact gives_split_empty s
  · exact succeeds_iff (fun h => ⟨_, gives_substring h⟩) gives_substring_bounds
  · exact hlength ▸ Lists.succeeds_slice_iff
  · intro h
    have hpart := Lists.gives_slice (hlength.symm ▸ h)
    rw [between_characters] at hpart
    refine ⟨_, _, hpart, gives_join_characters _, gives_substring h, ?_⟩
    unfold textBetween
    rw [String.toList_ofList]
    exact isPart_between h
  · intro h
    have hbounds := Lists.gives_slice_bounds (hlength.symm ▸ h)
    rw [hlength] at hbounds
    exact ⟨hbounds, gives_substring_bounds h⟩
  · intro length h
    refine ⟨gives_len h, fun k hk => ?_⟩
    refine ⟨_, _, gives_substring hk, gives_substring (hk.rest h), ?_⟩
    have hadd := gives_add (textBetween s 0 k) (textBetween s k length)
    rwa [textBetween_append_textBetween h] at hadd

end Texts

end ScriptValues
