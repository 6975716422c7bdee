import ScriptValues.Proofs.ByteOrder
import ScriptValues.Proofs.Calls

/-!
# Sorting lists

`sort` renders every element once and rearranges the list by the renderings: they ascend in the
order of code points, which is the order of their UTF-8 bytes, and elements with one rendering keep
the order in which they stood. Unequal values may have one rendering, so the values themselves are
in no order, and two rearrangements of one list may be sorted into different lists. Their
renderings are the same all the same.

* `Lists.StablySorted`: what a sorted list is.
* `Lists.sorted_eq_mergeSort`: the keys only decide the order.
* `Lists.sorts_stably`: every call.
-/

namespace ScriptValues

namespace Lists

variable {text : Value → String} {items others : List Value}

/-- `result` has the elements of `items` in the order of a text of theirs. -/
structure StablySorted (text : Value → String) (items result : List Value) : Prop where
  /-- No element is lost, doubled or changed. -/
  perm : result.Perm items
  /-- The texts ascend in the order of code points. -/
  ascending : result.Pairwise fun u v => text u ≤ text v
  /-- They ascend in the order of their UTF-8 bytes. -/
  ascendingBytes : result.Pairwise fun u v => utf8Bytes (text u) ≤ utf8Bytes (text v)
  /-- Each element is taken from a place of its own, and of two elements with the same text the one
  from the earlier place comes first. -/
  stable : ∃ taken : List (Value × Nat), taken.Perm items.zipIdx ∧ taken.map Prod.fst = result ∧
    taken.Pairwise fun e e' => text e.1 = text e'.1 → e.2 < e'.2

/-! ## The order of the texts -/

/-- Whether the text of one value comes no later than that of another. -/
def textLe (text : Value → String) (u v : Value) : Bool := text u ≤ text v

theorem textLe_trans (u v w : Value) (huv : textLe text u v) (hvw : textLe text v w) :
    textLe text u w :=
  decide_eq_true (String.le_trans (of_decide_eq_true huv) (of_decide_eq_true hvw))

theorem textLe_total (u v : Value) : textLe text u v || textLe text v u := by
  unfold textLe
  simpa using String.le_total (text u) (text v)

/-- Sorting the elements with their renderings in front is sorting them by their renderings. -/
theorem sorted_eq_mergeSort (resolved : FutureId → Bool) (items : List Value) :
    sorted resolved items = items.mergeSort (textLe (Value.inspect resolved)) := by
  have hkeyed : (items.mergeSort (textLe (Value.inspect resolved))).map
      (fun v => (v.inspect resolved, v)) =
      (items.map fun v => (v.inspect resolved, v)).mergeSort fun x y => x.1 ≤ y.1 :=
    List.map_mergeSort fun _ _ _ _ => rfl
  rw [sorted, ← hkeyed, List.map_map]
  exact List.map_id' _

/-- Sorting the elements together with their places shows where each of them was taken from. -/
theorem exists_taken (text : Value → String) (items : List Value) :
    ∃ taken : List (Value × Nat), taken.Perm items.zipIdx ∧
      taken.map Prod.fst = items.mergeSort (textLe text) ∧
      taken.Pairwise fun e e' => text e.1 = text e'.1 → e.2 < e'.2 := by
  have hperm := List.mergeSort_perm items.zipIdx (List.zipIdxLE (textLe text))
  refine ⟨_, hperm, List.mergeSort_zipIdx, ?_⟩
  have hplaces : (items.zipIdx.mergeSort (List.zipIdxLE (textLe text))).Pairwise
      fun e e' => e.2 ≠ e'.2 := by
    apply List.pairwise_map.1
    refine (hperm.map Prod.snd).nodup_iff.2 ?_
    rw [List.zipIdx_map_snd]
    exact List.nodup_range' ..
  have hsorted : (items.zipIdx.mergeSort (List.zipIdxLE (textLe text))).Pairwise
      fun e e' => List.zipIdxLE (textLe text) e e' :=
    List.pairwise_mergeSort (List.zipIdxLE_trans textLe_trans) (List.zipIdxLE_total textLe_total) _
  refine (hsorted.and hplaces).imp fun {e e'} h heq => ?_
  have hboth : textLe text e.1 e'.1 ∧ textLe text e'.1 e.1 := by
    simp [textLe, heq]
  have hle : e.2 ≤ e'.2 := by
    simpa [List.zipIdxLE, hboth] using h.1
  omega

theorem stablySorted_mergeSort (text : Value → String) (items : List Value) :
    StablySorted text items (items.mergeSort (textLe text)) := by
  have hascending : (items.mergeSort (textLe text)).Pairwise fun u v => text u ≤ text v :=
    (List.pairwise_mergeSort textLe_trans textLe_total items).imp of_decide_eq_true
  exact ⟨List.mergeSort_perm _ _, hascending, hascending.imp le_iff_utf8Bytes_le.1,
    exists_taken text items⟩

/-- A list with ascending texts stays as it is. -/
theorem StablySorted.mergeSort_eq {result : List Value} (h : StablySorted text items result) :
    result.mergeSort (textLe text) = result :=
  List.mergeSort_of_pairwise (h.ascending.imp decide_eq_true)

/-- Two rearrangements of one list have the same texts in order. -/
theorem StablySorted.map_eq {result result' : List Value} (h : StablySorted text items result)
    (h' : StablySorted text others result') (hperm : others.Perm items) :
    result'.map text = result.map text := by
  have hresults : result'.Perm result := (h'.perm.trans hperm).trans h.perm.symm
  refine (hresults.map text).eq_of_pairwise (fun s t _ _ hst hts => String.le_antisymm hst hts)
    (List.pairwise_map.2 h'.ascending) (List.pairwise_map.2 h.ascending)

/-! ## Calls -/

def sortBuiltin : Builtin := ⟨"sort", .compute .sort⟩

theorem tryCall_sort (items : List Value) (w : World) :
    sortBuiltin.tryCall [.list items] w =
      (.ok (.list (items.mergeSort (textLe (Value.inspect w.futures.isResolved)))), w) := by
  have haccepts : sortBuiltin.arity.accepts [Value.list items].length := rfl
  rw [Builtin.tryCall_of_accepts haccepts, ← sorted_eq_mergeSort]
  rfl

/-- Sorting a list succeeds and leaves the world as it is. The result is stably sorted by the
renderings, is sorted into itself, and has the renderings that any rearrangement of the list is
sorted into. -/
theorem sorts_stably (items : List Value) (w : World) :
    Builtin.lookup? "sort" = some sortBuiltin ∧
    ∃ result, sortBuiltin.tryCall [.list items] w = (.ok (.list result), w) ∧
      StablySorted (Value.inspect w.futures.isResolved) items result ∧
      sortBuiltin.tryCall [.list result] w = (.ok (.list result), w) ∧
      ∀ others, others.Perm items →
        ∃ result', sortBuiltin.tryCall [.list others] w = (.ok (.list result'), w) ∧
          result'.map (Value.inspect w.futures.isResolved) =
            result.map (Value.inspect w.futures.isResolved) := by
  have hsorted := stablySorted_mergeSort (Value.inspect w.futures.isResolved) items
  refine ⟨rfl, _, tryCall_sort items w, hsorted, ?_, fun others hperm => ?_⟩
  · rw [tryCall_sort, hsorted.mergeSort_eq]
  · exact ⟨_, tryCall_sort others w, hsorted.map_eq (stablySorted_mergeSort _ others) hperm⟩

/-- The text 7 and the integer 7 have one rendering, so the one that stood first stays first. The
rendering of 10 comes before both. -/
theorem sorts_stably_sevens : ∃ result,
    sortBuiltin.tryCall [.list [.string "b", .string "7", .int 10, .int 7]] .bare =
      (.ok (.list result), .bare) ∧
    StablySorted (Value.inspect World.bare.futures.isResolved)
      [.string "b", .string "7", .int 10, .int 7] result ∧
    result = [.int 10, .string "7", .int 7, .string "b"] := by
  obtain ⟨-, result, hcall, hsorted, -⟩ :=
    sorts_stably [.string "b", .string "7", .int 10, .int 7] .bare
  refine ⟨result, hcall, hsorted, ?_⟩
  rw [tryCall_sort] at hcall
  obtain rfl := Value.list.inj (Except.ok.inj (Prod.mk.inj hcall).1)
  simp +decide [List.mergeSort, List.MergeSort.Internal.splitInTwo, textLe]

end Lists

end ScriptValues
