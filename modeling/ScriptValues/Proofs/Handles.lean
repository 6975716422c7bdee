import ScriptValues.Call

/-!
# No operation makes a handle up

The handles inside an answer were inside the arguments, or, for `await`, inside the future that was
read. A failure turned into an error value holds none.

* `Arguments.Holds a v`: every handle of `v` is a handle of some argument.
* `Computation.holds_of_run`: this is so for the answer of every computation.
-/

namespace ScriptValues

namespace Arguments

variable {a : Arguments} {v : Value}

/-- Every handle inside a value is inside an argument. -/
def Holds (a : Arguments) (v : Value) : Prop := v.handles ⊆ a.values.flatMap Value.handles

theorem holds_of_plain (h : v.handles = []) : a.Holds v := by simp [Holds, h]

theorem holds_of_getElem {i : Nat} (h : a.values[i]? = some v) : a.Holds v := by
  intro id hid
  exact List.mem_flatMap.2 ⟨v, List.mem_of_getElem? h, hid⟩

theorem holds_list {items : List Value} : a.Holds (.list items) ↔ ∀ v ∈ items, a.Holds v := by
  constructor
  · intro h v hv id hid
    exact h (Value.mem_handles_list.2 ⟨v, hv, hid⟩)
  · intro h id hid
    obtain ⟨v, hv, hid⟩ := Value.mem_handles_list.1 hid
    exact h v hv hid

theorem holds_mapping {entries : Entries Value} :
    a.Holds (.mapping entries) ↔ ∀ e ∈ entries, a.Holds e.2 := by
  constructor
  · intro h e he id hid
    exact h (Value.mem_handles_mapping.2 ⟨e, he, hid⟩)
  · intro h id hid
    obtain ⟨e, he, hid⟩ := Value.mem_handles_mapping.1 hid
    exact h e he hid

/-- An element that is there, or null in its place. -/
theorem holds_getD {found? : Option Value} (h : ∀ v, found? = some v → a.Holds v) :
    a.Holds (found?.getD .null) := by
  cases found? with
  | none => exact holds_of_plain rfl
  | some v => exact h v rfl

end Arguments

open Arguments Result

variable {a : Arguments} {v : Value}

/-! ## Lists -/

namespace Lists

theorem holds_items {i : Nat} {items : List Value} (h : a.list i = .ok items) :
    ∀ v ∈ items, a.Holds v :=
  holds_list.1 (holds_of_getElem (list_eq_ok.1 h))

theorem mem_of_slice {α : Type} {items part : List α} {start stop : Nat}
    (h : InRange.slice items start stop = .ok part) : part ⊆ items := by
  unfold InRange.slice at h
  split at h
  · obtain rfl := Except.ok.inj h
    exact fun _ hx => List.mem_of_mem_take (List.mem_of_mem_drop hx)
  · cases h

theorem mem_sorted {resolved : FutureId → Bool} {items : List Value} :
    v ∈ sorted resolved items → v ∈ items := by
  simp only [sorted, List.mem_map, List.mem_mergeSort]
  rintro ⟨_, ⟨w, hw, rfl⟩, rfl⟩
  exact hw

theorem holds_len (h : len a = .ok v) : a.Holds v := by
  obtain ⟨w, -, h⟩ := bind_eq_ok.1 h
  cases w <;> first | exact absurd h mismatch_ne_ok | exact holds_of_plain (pure_eq_ok.1 h ▸ rfl)

theorem holds_append (h : append a = .ok v) : a.Holds v := by
  simp only [append, bind_eq_ok, pure_eq_ok] at h
  obtain ⟨items, hi, item, hv, rfl⟩ := h
  refine holds_list.2 fun w hw => ?_
  rcases List.mem_append.1 hw with hw | hw
  · exact holds_items hi w hw
  · rw [List.mem_singleton.1 hw]
    exact holds_of_getElem (value_eq_ok.1 hv)

theorem holds_prepend (h : prepend a = .ok v) : a.Holds v := by
  simp only [prepend, bind_eq_ok, pure_eq_ok] at h
  obtain ⟨items, hi, item, hv, rfl⟩ := h
  refine holds_list.2 fun w hw => ?_
  rcases List.mem_cons.1 hw with rfl | hw
  · exact holds_of_getElem (value_eq_ok.1 hv)
  · exact holds_items hi w hw

theorem holds_pop (h : pop a = .ok v) : a.Holds v := by
  obtain ⟨items, hi, h⟩ := bind_eq_ok.1 h
  split at h
  · exact absurd h fail_ne_ok
  · simp only [bind_eq_ok, pure_eq_ok] at h
    obtain ⟨_, _, part, hp, rfl⟩ := h
    exact holds_list.2 fun w hw => holds_items hi w (mem_of_slice hp hw)

theorem holds_shift (h : shift a = .ok v) : a.Holds v := by
  obtain ⟨items, hi, h⟩ := bind_eq_ok.1 h
  split at h
  · exact absurd h fail_ne_ok
  · simp only [bind_eq_ok, pure_eq_ok] at h
    obtain ⟨part, hp, rfl⟩ := h
    exact holds_list.2 fun w hw => holds_items hi w (mem_of_slice hp hw)

theorem holds_slice (h : slice a = .ok v) : a.Holds v := by
  obtain ⟨items, hi, h⟩ := bind_eq_ok.1 h
  obtain ⟨start, -, h⟩ := bind_eq_ok.1 h
  obtain ⟨stop, -, h⟩ := bind_eq_ok.1 h
  split at h
  · exact absurd h fail_ne_ok
  · simp only [bind_eq_ok, pure_eq_ok] at h
    obtain ⟨_, _, _, _, part, hp, rfl⟩ := h
    exact holds_list.2 fun w hw => holds_items hi w (mem_of_slice hp hw)

theorem holds_clampedSlice (h : clampedSlice a = .ok v) : a.Holds v := by
  obtain ⟨items, hi, h⟩ := bind_eq_ok.1 h
  obtain ⟨start, -, h⟩ := bind_eq_ok.1 h
  obtain ⟨stop, -, h⟩ := bind_eq_ok.1 h
  obtain ⟨first, -, h⟩ := bind_eq_ok.1 h
  obtain ⟨last, -, h⟩ := bind_eq_ok.1 h
  split at h
  · exact holds_of_plain (pure_eq_ok.1 h ▸ rfl)
  · simp only [bind_eq_ok, pure_eq_ok] at h
    obtain ⟨part, hp, rfl⟩ := h
    exact holds_list.2 fun w hw => holds_items hi w (mem_of_slice hp hw)

theorem holds_sort {resolved : FutureId → Bool} (h : sort resolved a = .ok v) : a.Holds v := by
  simp only [sort, bind_eq_ok, pure_eq_ok] at h
  obtain ⟨items, hi, rfl⟩ := h
  exact holds_list.2 fun w hw => holds_items hi w (mem_sorted hw)

theorem holds_reverse (h : reverse a = .ok v) : a.Holds v := by
  simp only [reverse, bind_eq_ok, pure_eq_ok] at h
  obtain ⟨items, hi, rfl⟩ := h
  exact holds_list.2 fun w hw => holds_items hi w (List.mem_reverse.1 hw)

theorem holds_concat (h : concat a = .ok v) : a.Holds v := by
  simp only [concat, bind_eq_ok, pure_eq_ok] at h
  obtain ⟨items, hi, others, ho, rfl⟩ := h
  refine holds_list.2 fun w hw => ?_
  rcases List.mem_append.1 hw with hw | hw
  · exact holds_items hi w hw
  · exact holds_items ho w hw

theorem holds_indexOf (h : indexOf a = .ok v) : a.Holds v := by
  obtain ⟨items, -, h⟩ := bind_eq_ok.1 h
  obtain ⟨w, -, h⟩ := bind_eq_ok.1 h
  split at h <;> exact holds_of_plain (pure_eq_ok.1 h ▸ rfl)

theorem holds_includes (h : includes a = .ok v) : a.Holds v := by
  simp only [includes, bind_eq_ok, pure_eq_ok] at h
  obtain ⟨items, -, w, -, rfl⟩ := h
  exact holds_of_plain rfl

theorem holds_get (h : get a = .ok v) : a.Holds v := by
  obtain ⟨items, hi, h⟩ := bind_eq_ok.1 h
  obtain ⟨i, -, h⟩ := bind_eq_ok.1 h
  dsimp only at h
  split at h
  · next w hw =>
    obtain rfl := pure_eq_ok.1 h
    split at hw
    · exact holds_items hi w (List.mem_of_getElem? hw)
    · cases hw
  · exact absurd h fail_ne_ok

theorem holds_first (h : first a = .ok v) : a.Holds v := by
  simp only [first, bind_eq_ok, pure_eq_ok] at h
  obtain ⟨items, hi, rfl⟩ := h
  exact holds_getD fun w hw => holds_items hi w (List.mem_of_mem_head? hw)

theorem holds_last (h : last a = .ok v) : a.Holds v := by
  simp only [last, bind_eq_ok, pure_eq_ok] at h
  obtain ⟨items, hi, rfl⟩ := h
  exact holds_getD fun w hw => holds_items hi w (List.mem_of_mem_getLast? hw)

end Lists

/-! ## Mappings -/

namespace Mappings

theorem holds_entries_of {i : Nat} {entries : Entries Value} (h : a.mapping i = .ok entries) :
    ∀ e ∈ entries, a.Holds e.2 :=
  holds_mapping.1 (holds_of_getElem (mapping_eq_ok.1 h))

theorem holds_get (h : get a = .ok v) : a.Holds v := by
  simp only [get, bind_eq_ok, pure_eq_ok] at h
  obtain ⟨entries, he, key, -, rfl⟩ := h
  exact holds_getD fun w hw => holds_entries_of he (key, w) (Entries.mem_of_lookup hw)

theorem holds_set (h : set a = .ok v) : a.Holds v := by
  simp only [set, bind_eq_ok, pure_eq_ok] at h
  obtain ⟨entries, he, key, -, value, hv, rfl⟩ := h
  refine holds_mapping.2 fun e hmem => ?_
  rcases Entries.mem_insert hmem with rfl | hmem
  · exact holds_of_getElem (value_eq_ok.1 hv)
  · exact holds_entries_of he e hmem

theorem holds_values (h : values a = .ok v) : a.Holds v := by
  simp only [values, bind_eq_ok, pure_eq_ok] at h
  obtain ⟨entries, he, rfl⟩ := h
  refine holds_list.2 fun w hw => ?_
  obtain ⟨e, hmem, rfl⟩ := List.mem_map.1 hw
  exact holds_entries_of he e hmem

theorem holds_delete (h : delete a = .ok v) : a.Holds v := by
  simp only [delete, bind_eq_ok, pure_eq_ok] at h
  obtain ⟨entries, he, key, -, rfl⟩ := h
  exact holds_mapping.2 fun e hmem => holds_entries_of he e (Entries.mem_erase.1 hmem).1

theorem holds_entries (h : entries a = .ok v) : a.Holds v := by
  simp only [entries, bind_eq_ok, pure_eq_ok] at h
  obtain ⟨entries, he, rfl⟩ := h
  refine holds_list.2 fun w hw => ?_
  obtain ⟨e, hmem, rfl⟩ := List.mem_map.1 hw
  refine holds_list.2 fun w hw => ?_
  rcases List.mem_cons.1 hw with rfl | hw
  · exact holds_of_plain rfl
  · rw [List.mem_singleton.1 hw]
    exact holds_entries_of he e hmem

end Mappings

/-! ## Numbers -/

namespace Arithmetic

theorem handles_of_orOverflow {n? : Option Int64} (h : orOverflow a n? = .ok v) :
    v.handles = [] := by
  cases n? with
  | none => exact absurd h fail_ne_ok
  | some n => exact Except.ok.inj h ▸ rfl

theorem handles_of_onIntegers {operator : BinaryOperator} {x y : Int64}
    (h : onIntegers a operator x y = .ok v) : v.handles = [] := by
  cases operator <;> simp only [onIntegers] at h
  case divide | remainder | power =>
    split at h
    · exact absurd h fail_ne_ok
    · exact handles_of_orOverflow h
  all_goals exact handles_of_orOverflow h

theorem handles_of_onDoubles {operator : BinaryOperator} {x y : Float}
    (h : onDoubles a operator x y = .ok v) : v.handles = [] := by
  cases operator <;> simp only [onDoubles] at h
  case divide | remainder =>
    split at h
    · exact absurd h fail_ne_ok
    · exact Except.ok.inj h ▸ rfl
  all_goals exact Except.ok.inj h ▸ rfl

theorem blame_ne_ok {operator : BinaryOperator} {left : Value} :
    blame a operator left ≠ .ok v := by
  unfold blame
  split <;> exact mismatch_ne_ok

/-- An operator answers with a number or a text. -/
theorem handles_of_apply {operator : BinaryOperator} {c : Coerced}
    (h : apply a operator c = .ok v) : v.handles = [] := by
  unfold apply at h
  split at h
  · exact handles_of_onIntegers h
  · exact handles_of_onDoubles h
  · split at h
    · exact Except.ok.inj h ▸ rfl
    · exact absurd h blame_ne_ok
  · exact absurd h blame_ne_ok

theorem handles_of_isNumeric (h : v.isNumeric) : v.handles = [] := by
  cases v <;> first | rfl | cases h

theorem handles_of_coerce {left right : Value} (operator : BinaryOperator)
    (hl : left.handles = []) (hr : right.handles = []) :
    (coerce left right operator).left.handles = [] ∧
      (coerce left right operator).right.handles = [] := by
  unfold coerce
  split
  · exact ⟨rfl, rfl⟩
  · exact ⟨rfl, rfl⟩
  · split
    · split
      · exact ⟨rfl, rfl⟩
      · exact ⟨rfl, hr⟩
    · exact ⟨rfl, hr⟩
  · split
    · split
      · exact ⟨rfl, rfl⟩
      · exact ⟨hl, rfl⟩
    · exact ⟨hl, rfl⟩
  · exact ⟨hl, hr⟩

theorem holds_pick {chooseLeft : Bool → Bool} (h : pick a chooseLeft = .ok v) : a.Holds v := by
  obtain ⟨left, hl, h⟩ := bind_eq_ok.1 h
  obtain ⟨right, hr, h⟩ := bind_eq_ok.1 h
  have hc := handles_of_coerce .subtract
    (handles_of_isNumeric (number_eq_ok.1 hl).2) (handles_of_isNumeric (number_eq_ok.1 hr).2)
  obtain rfl := pure_eq_ok.1 h
  split
  · exact holds_of_plain hc.1
  · exact holds_of_plain hc.2

theorem holds_sqrt (h : sqrt a = .ok v) : a.Holds v := by
  obtain ⟨w, -, h⟩ := bind_eq_ok.1 h
  dsimp only at h
  split at h
  · exact absurd h fail_ne_ok
  · exact holds_of_plain (pure_eq_ok.1 h ▸ rfl)

theorem holds_abs (h : abs a = .ok v) : a.Holds v := by
  obtain ⟨w, -, h⟩ := bind_eq_ok.1 h
  split at h
  · exact holds_of_plain (handles_of_orOverflow h)
  · exact holds_of_plain (pure_eq_ok.1 h ▸ rfl)

theorem holds_toIntegral {mode : Double.Rounding} (h : toIntegral a mode = .ok v) :
    a.Holds v := by
  obtain ⟨w, -, h⟩ := bind_eq_ok.1 h
  split at h
  · exact holds_of_plain (pure_eq_ok.1 h ▸ rfl)
  · exact holds_of_plain (handles_of_orOverflow h)

end Arithmetic

/-! ## Conversions and questions -/

namespace Conversions

theorem handles_of_readNumber {s : String} (h : readNumber? s = some v) : v.handles = [] := by
  unfold readNumber? at h
  dsimp only at h
  split at h
  · exact Option.some.inj h ▸ rfl
  · obtain ⟨x, -, rfl⟩ := Option.map_eq_some_iff.1 h
    rfl

theorem holds_toNumber (h : toNumber a = .ok v) : a.Holds v := by
  obtain ⟨w, -, h⟩ := bind_eq_ok.1 h
  split at h
  · exact holds_of_plain (pure_eq_ok.1 h ▸ rfl)
  · exact holds_of_plain (pure_eq_ok.1 h ▸ rfl)
  · exact holds_of_plain (pure_eq_ok.1 h ▸ rfl)
  · split at h
    · next hn => exact holds_of_plain (pure_eq_ok.1 h ▸ handles_of_readNumber hn)
    · exact absurd h fail_ne_ok
  · exact absurd h mismatch_ne_ok

theorem holds_toInt (h : toInt a = .ok v) : a.Holds v := by
  obtain ⟨w, -, h⟩ := bind_eq_ok.1 h
  split at h
  · exact holds_of_plain (pure_eq_ok.1 h ▸ rfl)
  · exact holds_of_plain (Arithmetic.handles_of_orOverflow h)
  · exact holds_of_plain (pure_eq_ok.1 h ▸ rfl)
  · dsimp only at h
    split at h
    · exact holds_of_plain (pure_eq_ok.1 h ▸ rfl)
    · split at h
      · exact holds_of_plain (Arithmetic.handles_of_orOverflow h)
      · exact absurd h fail_ne_ok
  · exact absurd h mismatch_ne_ok

theorem holds_isEmpty (h : isEmpty a = .ok v) : a.Holds v := by
  obtain ⟨w, -, h⟩ := bind_eq_ok.1 h
  split at h
  case h_5 => exact absurd h mismatch_ne_ok
  all_goals exact holds_of_plain (pure_eq_ok.1 h ▸ rfl)

theorem spawn_ne_ok : spawn a ≠ .ok v := by
  intro h
  obtain ⟨w, -, h⟩ := bind_eq_ok.1 h
  split at h
  · exact fail_ne_ok h
  · exact mismatch_ne_ok h

end Conversions

/-! ## Texts -/

namespace Texts

theorem holds_split (h : split a = .ok v) : a.Holds v := by
  simp only [split, bind_eq_ok, pure_eq_ok] at h
  obtain ⟨s, -, separator, -, rfl⟩ := h
  refine holds_list.2 fun w hw => ?_
  obtain ⟨part, -, rfl⟩ := List.mem_map.1 hw
  exact holds_of_plain rfl

theorem holds_substring (h : substring a = .ok v) : a.Holds v := by
  obtain ⟨s, -, h⟩ := bind_eq_ok.1 h
  obtain ⟨start, -, h⟩ := bind_eq_ok.1 h
  obtain ⟨stop, -, h⟩ := bind_eq_ok.1 h
  dsimp only at h
  split at h
  · exact absurd h fail_ne_ok
  · simp only [bind_eq_ok, pure_eq_ok] at h
    obtain ⟨_, _, _, _, _, _, rfl⟩ := h
    exact holds_of_plain rfl

theorem holds_mapped {f : List Char → List Char} (h : mapped f a = .ok v) : a.Holds v := by
  simp only [mapped, bind_eq_ok, pure_eq_ok] at h
  obtain ⟨s, -, rfl⟩ := h
  exact holds_of_plain rfl

theorem holds_tested {test : List Char → List Char → Bool} (h : tested test a = .ok v) :
    a.Holds v := by
  simp only [tested, bind_eq_ok, pure_eq_ok] at h
  obtain ⟨s, -, t, -, rfl⟩ := h
  exact holds_of_plain rfl

end Texts

/-- The handles in the answer of a computation were in its arguments. -/
theorem Computation.holds_of_run {resolved : FutureId → Bool} {c : Computation}
    (h : c.run resolved a = .ok v) : a.Holds v := by
  cases c <;> simp only [Computation.run] at h
  case split => exact Texts.holds_split h
  case substring => exact Texts.holds_substring h
  case trim | toUpper | toLower => exact Texts.holds_mapped h
  case contains | startsWith | endsWith => exact Texts.holds_tested h
  case len => exact Lists.holds_len h
  case append => exact Lists.holds_append h
  case prepend => exact Lists.holds_prepend h
  case pop => exact Lists.holds_pop h
  case shift => exact Lists.holds_shift h
  case slice => exact Lists.holds_slice h
  case clampedSlice => exact Lists.holds_clampedSlice h
  case sort => exact Lists.holds_sort h
  case reverse => exact Lists.holds_reverse h
  case concat => exact Lists.holds_concat h
  case indexOf => exact Lists.holds_indexOf h
  case includes => exact Lists.holds_includes h
  case get => exact Lists.holds_get h
  case first => exact Lists.holds_first h
  case last => exact Lists.holds_last h
  case mapGet => exact Mappings.holds_get h
  case mapSet => exact Mappings.holds_set h
  case mapValues => exact Mappings.holds_values h
  case mapDelete => exact Mappings.holds_delete h
  case mapEntries => exact Mappings.holds_entries h
  case toNumber => exact Conversions.holds_toNumber h
  case toInt => exact Conversions.holds_toInt h
  case sqrt => exact Arithmetic.holds_sqrt h
  case abs => exact Arithmetic.holds_abs h
  case round | floor | ceil => exact Arithmetic.holds_toIntegral h
  case min | max => exact Arithmetic.holds_pick h
  case isEmpty => exact Conversions.holds_isEmpty h
  case spawn => exact absurd h Conversions.spawn_ne_ok
  case mapKeys =>
    simp only [Mappings.keys, bind_eq_ok, pure_eq_ok] at h
    obtain ⟨entries, -, rfl⟩ := h
    refine holds_list.2 fun w hw => ?_
    obtain ⟨e, -, rfl⟩ := List.mem_map.1 hw
    exact holds_of_plain rfl
  case mapClear =>
    simp only [Mappings.clear, bind_eq_ok, pure_eq_ok] at h
    obtain ⟨entries, -, rfl⟩ := h
    exact holds_of_plain rfl
  -- what is left answers with one scalar after looking at its arguments
  case join =>
    simp only [Texts.join, bind_eq_ok, pure_eq_ok] at h
    obtain ⟨items, -, separator, -, rfl⟩ := h
    exact holds_of_plain rfl
  case replace =>
    simp only [Texts.replace, bind_eq_ok, pure_eq_ok] at h
    obtain ⟨s, -, old, -, new, -, rfl⟩ := h
    exact holds_of_plain rfl
  case mapHas =>
    simp only [Mappings.has, bind_eq_ok, pure_eq_ok] at h
    obtain ⟨entries, -, key, -, rfl⟩ := h
    exact holds_of_plain rfl
  case mapSize | toString | toBool | typeOf | isNull =>
    simp only [Mappings.size, Conversions.toString, Conversions.toBool, Conversions.typeOf,
      Conversions.isNull, bind_eq_ok, pure_eq_ok] at h
    obtain ⟨w, -, rfl⟩ := h
    exact holds_of_plain rfl

end ScriptValues
