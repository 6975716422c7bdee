import ScriptValues.Proofs.ListSearch

/-!
# Lists and their mirror images

`reverse` turns the operations at the front of a list into those at its back: what `prepend`,
`shift`, `first` and `get` do to a list, `append`, `pop`, `last` and `get` from the other end do to
its mirror image.

* `Lists.mirrors_iff`: the mirror image of a list is the list backwards.
* `Lists.mirrorLaws`: the two ends of every list, and the answers for the empty one.
-/

namespace ScriptValues

namespace Lists

open Builtin

variable {items back : List Value} {i j : Int64}

/-! ## What single calls give -/

theorem gives_reverse (items : List Value) :
    Gives "reverse" [.list items] (.ok (.list items.reverse)) :=
  gives_of_run rfl rfl fun _ => rfl

theorem gives_append (items : List Value) (v : Value) :
    Gives "append" [.list items, v] (.ok (.list (items ++ [v]))) :=
  gives_of_run rfl rfl fun _ => rfl

theorem gives_prepend (items : List Value) (v : Value) :
    Gives "prepend" [.list items, v] (.ok (.list (v :: items))) :=
  gives_of_run rfl rfl fun _ => rfl

theorem gives_first (items : List Value) :
    Gives "first" [.list items] (.ok (items.head?.getD .null)) :=
  gives_of_run rfl rfl fun _ => rfl

theorem gives_last (items : List Value) :
    Gives "last" [.list items] (.ok (items.getLast?.getD .null)) :=
  gives_of_run rfl rfl fun _ => rfl

theorem gives_pop (h : items ≠ []) :
    Gives "pop" [.list items] (.ok (.list items.dropLast)) := by
  have hpos : 1 ≤ items.length := List.length_pos_iff.2 h
  apply gives_of_run rfl rfl
  intro _
  show (if items.isEmpty then _ else _) = _
  rw [if_neg (mt List.isEmpty_iff.1 h), InRange.difference_of_le hpos, Result.ok_bind,
    InRange.slice_of_le (Nat.zero_le _) (Nat.sub_le _ _), List.dropLast_eq_take]
  rfl

theorem gives_shift (h : items ≠ []) :
    Gives "shift" [.list items] (.ok (.list items.tail)) := by
  have hpos : 1 ≤ items.length := List.length_pos_iff.2 h
  apply gives_of_run rfl rfl
  intro _
  show (if items.isEmpty then _ else _) = _
  rw [if_neg (mt List.isEmpty_iff.1 h), InRange.slice_of_le hpos (Nat.le_refl _),
    List.take_length, List.drop_one]
  rfl

/-- Taking an element from the empty list is a failure of the builtin that was called. -/
def emptyList (name : String) : Result Value := .error (.failure ⟨name, .emptyList⟩)

theorem gives_pop_nil : Gives "pop" [.list []] (emptyList "pop") :=
  gives_of_run rfl rfl fun _ => rfl

theorem gives_shift_nil : Gives "shift" [.list []] (emptyList "shift") :=
  gives_of_run rfl rfl fun _ => rfl

theorem gives_pop_iff : Gives "pop" [.list items] (emptyList "pop") ↔ items = [] := by
  rw [← not_ne_iff]
  refine fails_iff (fun hne => ⟨_, gives_pop hne⟩) fun hempty => ?_
  obtain rfl := not_ne_iff.1 hempty
  exact gives_pop_nil

theorem gives_shift_iff : Gives "shift" [.list items] (emptyList "shift") ↔ items = [] := by
  rw [← not_ne_iff]
  refine fails_iff (fun hne => ⟨_, gives_shift hne⟩) fun hempty => ?_
  obtain rfl := not_ne_iff.1 hempty
  exact gives_shift_nil

def IsPosition (items : List Value) (i : Int64) : Prop :=
  0 ≤ i.toInt ∧ i.toInt < items.length

/-- Looking at a position outside a list fails with the position and the length. -/
def outside (items : List Value) (i : Int64) : Result Value :=
  .error (.failure ⟨"get", .index i items.length⟩)

theorem exists_gives_get (h : IsPosition items i) :
    ∃ u, items[i.toInt.toNat]? = some u ∧ Gives "get" [.list items, .int i] (.ok u) := by
  obtain ⟨hnonneg, hlt⟩ := h
  have hitem := List.getElem?_eq_getElem (l := items) (i := i.toInt.toNat) (by omega)
  exact ⟨_, hitem, gives_get hnonneg hitem⟩

theorem gives_get_outside (h : ¬ IsPosition items i) :
    Gives "get" [.list items, .int i] (outside items i) := by
  have hnone : (if 0 ≤ i.toInt then items[i.toInt.toNat]? else none) = none := by
    split
    · next hnonneg =>
      rw [List.getElem?_eq_none_iff]
      by_contra hlt
      exact h ⟨hnonneg, by omega⟩
    · rfl
  have hget := gives_get_or_index items i
  rwa [hnone] at hget

/-- Only outside the list is an integer reported. -/
theorem gives_get_outside_iff :
    Gives "get" [.list items, .int i] (outside items i) ↔ ¬ IsPosition items i := by
  refine fails_iff (fun hposition => ?_) gives_get_outside
  obtain ⟨u, -, hu⟩ := exists_gives_get hposition
  exact ⟨u, hu⟩

/-! ## Mirror images -/

/-- Two lists are mirror images: `reverse` answers each for the other. -/
structure Mirrors (items back : List Value) : Prop where
  reversed : Gives "reverse" [.list items] (.ok (.list back))
  restored : Gives "reverse" [.list back] (.ok (.list items))

theorem mirrors_iff : Mirrors items back ↔ back = items.reverse := by
  constructor
  · intro h
    have hsame := h.reversed.unique (gives_reverse items)
    exact Value.list.inj (Except.ok.inj hsame)
  · rintro rfl
    have hagain := gives_reverse items.reverse
    rw [List.reverse_reverse] at hagain
    exact ⟨gives_reverse items, hagain⟩

/-- `j` is as far from the end of the list as `i` is from its front. -/
def Opposite (items : List Value) (i j : Int64) : Prop := j.toInt = items.length - 1 - i.toInt

theorem Opposite.isPosition_iff (h : Opposite items i j) :
    IsPosition items.reverse j ↔ IsPosition items i := by
  unfold Opposite at h
  unfold IsPosition
  rw [List.length_reverse]
  omega

theorem Opposite.getElem?_reverse (h : Opposite items i j) (hi : IsPosition items i) :
    items.reverse[j.toInt.toNat]? = items[i.toInt.toNat]? := by
  unfold Opposite at h
  obtain ⟨hnonneg, hlt⟩ := hi
  exact List.getElem?_reverse' (by omega)

/-- Opposite positions in mirror images hold the same element. -/
theorem Opposite.exists_gives_get (h : Opposite items i j) (hi : IsPosition items i) :
    ∃ u, Gives "get" [.list items, .int i] (.ok u) ∧
      Gives "get" [.list items.reverse, .int j] (.ok u) := by
  obtain ⟨u, hitem, hu⟩ := Lists.exists_gives_get hi
  have hj := h.isPosition_iff.2 hi
  rw [← h.getElem?_reverse hi] at hitem
  exact ⟨u, hu, gives_get hj.1 hitem⟩

theorem getD_head?_eq_null_iff :
    items.head?.getD .null = .null ↔ items = [] ∨ items.head? = some .null := by
  cases items with
  | nil => simp
  | cons v rest => simp

/-- What the builtins answer at the front of a list, and what they answer at the back of its mirror
image. -/
structure MirrorLaws (items back others othersBack : List Value) (v : Value) : Prop where
  /-- Two lists one after the other are mirrored by their mirror images in the other order. -/
  joined : ∃ whole wholeBack,
    Gives "concat" [.list items, .list others] (.ok (.list whole)) ∧
    Gives "concat" [.list othersBack, .list back] (.ok (.list wholeBack)) ∧
    Mirrors whole wholeBack
  extended : ∃ longer longerBack,
    Gives "prepend" [.list items, v] (.ok (.list longer)) ∧
    Gives "append" [.list back, v] (.ok (.list longerBack)) ∧
    Mirrors longer longerBack
  shortened : items ≠ [] → ∃ rest restBack,
    Gives "shift" [.list items] (.ok (.list rest)) ∧
    Gives "pop" [.list back] (.ok (.list restBack)) ∧
    Mirrors rest restBack
  /-- Only the empty list has nothing to take away. -/
  exhausted : (Gives "shift" [.list items] (emptyList "shift") ↔ items = []) ∧
    (Gives "pop" [.list back] (emptyList "pop") ↔ items = [])
  /-- What was added is taken away again. -/
  undone : ∃ atBack atFront,
    Gives "append" [.list items, v] (.ok atBack) ∧ Gives "pop" [atBack] (.ok (.list items)) ∧
    Gives "prepend" [.list items, v] (.ok atFront) ∧ Gives "shift" [atFront] (.ok (.list items))
  ends : ∃ u, Gives "first" [.list items] (.ok u) ∧ Gives "last" [.list back] (.ok u) ∧
    (u = .null ↔ items = [] ∨ items.head? = some .null)
  /-- The length of a list that fits in memory is an integer of the language. -/
  measured : ∀ length : Int64, length.toInt = items.length →
    Gives "len" [.list items] (.ok (.int length)) ∧ Gives "len" [.list back] (.ok (.int length))
  /-- Integers on opposite sides are positions together, and then hold the same element. -/
  placed : ∀ i j, Opposite items i j →
    (IsPosition items i → ∃ u,
      Gives "get" [.list items, .int i] (.ok u) ∧ Gives "get" [.list back, .int j] (.ok u)) ∧
    (Gives "get" [.list items, .int i] (outside items i) ↔ ¬ IsPosition items i) ∧
    (Gives "get" [.list back, .int j] (outside back j) ↔ ¬ IsPosition items i)

/-- Every list has a mirror image, in which the builtins find at one end what they find in the list
at the other. -/
theorem mirrorLaws (items others : List Value) (v : Value) : ∃ back othersBack,
    Mirrors items back ∧ Mirrors others othersBack ∧
    MirrorLaws items back others othersBack v := by
  refine ⟨items.reverse, others.reverse, mirrors_iff.2 rfl, mirrors_iff.2 rfl, ?_⟩
  constructor
  · exact ⟨_, _, gives_concat items others, gives_concat others.reverse items.reverse,
      mirrors_iff.2 List.reverse_append.symm⟩
  · exact ⟨_, _, gives_prepend items v, gives_append items.reverse v,
      mirrors_iff.2 List.reverse_cons.symm⟩
  · intro hne
    have hneBack : items.reverse ≠ [] := mt List.reverse_eq_nil_iff.1 hne
    exact ⟨_, _, gives_shift hne, gives_pop hneBack, mirrors_iff.2 List.dropLast_reverse⟩
  · exact ⟨gives_shift_iff, gives_pop_iff.trans List.reverse_eq_nil_iff⟩
  · -- what was added stands at the very end that `pop` and `shift` cut off
    have hpop := gives_pop (List.concat_ne_nil v items)
    have hshift := gives_shift (List.cons_ne_nil v items)
    rw [List.dropLast_concat] at hpop
    exact ⟨_, _, gives_append items v, hpop, gives_prepend items v, hshift⟩
  · have hlast := gives_last items.reverse
    rw [List.getLast?_reverse] at hlast
    exact ⟨_, gives_first items, hlast, getD_head?_eq_null_iff⟩
  · intro length hlength
    refine ⟨gives_len hlength, gives_len ?_⟩
    rw [hlength, List.length_reverse]
  · intro i j h
    refine ⟨h.exists_gives_get, gives_get_outside_iff, ?_⟩
    rw [gives_get_outside_iff, h.isPosition_iff]

end Lists

end ScriptValues
