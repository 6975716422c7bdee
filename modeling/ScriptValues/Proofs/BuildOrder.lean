import ScriptValues.Proofs.MappingVersions
import ScriptValues.Proofs.StoredMappings

/-!
# The order in which a mapping is built

Entries with distinct keys can be set in any order, and other keys can be set on the way if they are
deleted again. The mapping at the end is the same, and so is all that is computed from it: alone or
inside lists and other mappings, and in whatever order the tables that are in use keep their
entries.

* `Mappings.Builds`: changes that set some entries and leave nothing else.
* `Mappings.Displays`: a mapping shows these entries and no others.
* `Value.nested`: a value inside lists and mappings.
* `Mappings.buildOrder_unobservable`: two ways to build the same cannot be told apart.
-/

namespace ScriptValues

open Entries

/-! ## Values inside values -/

/-- A list or a mapping around one of its parts. -/
inductive Layer where
  | list (before after : List Value)
  | mapping (key : String) (others : Entries Value)

namespace Layer

/-- The list or the mapping with the part in its place. -/
def around (part : Value) : Layer → Value
  | .list before after => .list (before ++ part :: after)
  | .mapping key others => .mapping (insert key part others)

/-- The other parts are well-formed. -/
def WellFormed : Layer → Prop
  | .list before after => ∀ v ∈ before ++ after, v.WellFormed
  | .mapping _ others => (Value.mapping others).WellFormed

theorem wellFormed_around {layer : Layer} {part : Value} (h : layer.WellFormed)
    (hpart : part.WellFormed) : (layer.around part).WellFormed := by
  cases layer with
  | list before after =>
    refine .list fun v hv => ?_
    rcases List.mem_append.1 hv with hv | hv
    · exact h v (List.mem_append_left _ hv)
    · rcases List.mem_cons.1 hv with rfl | hv
      · exact hpart
      · exact h v (List.mem_append_right _ hv)
  | mapping key others =>
    cases h with
    | mapping hsorted hothers =>
      refine .mapping hsorted.insert fun e he => ?_
      rcases mem_insert he with rfl | he
      · exact hpart
      · exact hothers e he

end Layer

namespace Value

/-- A value inside some layers, of which the first is the outermost. -/
def nested (layers : List Layer) (v : Value) : Value :=
  layers.foldr (fun layer part => layer.around part) v

theorem wellFormed_nested {layers : List Layer} (h : ∀ layer ∈ layers, layer.WellFormed)
    {v : Value} (hv : v.WellFormed) : (nested layers v).WellFormed := by
  induction layers with
  | nil => exact hv
  | cons layer rest ih =>
    exact Layer.wellFormed_around (h layer List.mem_cons_self)
      (ih fun inner hinner => h inner (List.mem_cons_of_mem _ hinner))

end Value

namespace Mappings

variable {entries : List (String × Value)} {changes : List Change}

/-! ## What is left of the changes -/

/-- The changes set each of the entries once, in any order, and do nothing else to their keys. What
they set under other keys they delete again. -/
structure Builds (entries : List (String × Value)) (changes : List Change) : Prop where
  sets : (changes.filter fun change => entries.any fun e => change.concerns e.1).Perm
    (entries.map fun e => .set e.1 e.2)
  others (key : String) : key ∉ entries.map Prod.fst → content (fun _ => none) changes key = none

/-- The only change that concerns the key of an entry is the one that sets it. -/
theorem Builds.eq_set (h : Builds entries changes) (hdistinct : Distinct entries) {key : String}
    {value : Value} (hentry : (key, value) ∈ entries) {change : Change} (hchange : change ∈ changes)
    (hconcerns : change.concerns key) : change = .set key value := by
  have hset : change ∈ entries.map fun e => Change.set e.1 e.2 := by
    refine h.sets.mem_iff.1 (List.mem_filter.2 ⟨hchange, ?_⟩)
    exact List.any_eq_true.2 ⟨(key, value), hentry, hconcerns⟩
  obtain ⟨⟨k, v⟩, hkv, rfl⟩ := List.mem_map.1 hset
  obtain rfl : k = key := of_decide_eq_true hconcerns
  have hsame : some v = some value :=
    (hdistinct.lookup_iff.2 hkv).symm.trans (hdistinct.lookup_iff.2 hentry)
  rw [Option.some.inj hsame]

theorem Builds.content_eq (h : Builds entries changes) (hdistinct : Distinct entries)
    (key : String) : content (fun _ => none) changes key = lookup? key entries := by
  by_cases hkey : key ∈ entries.map Prod.fst
  · obtain ⟨⟨k, value⟩, hentry, rfl⟩ := List.mem_map.1 hkey
    have hset : Change.set k value ∈ changes :=
      (List.mem_filter.1 (h.sets.mem_iff.2 (List.mem_map.2 ⟨_, hentry, rfl⟩))).1
    rw [hdistinct.lookup_iff.2 hentry, content]
    cases hfind : changes.reverse.find? (Change.concerns k) with
    | none =>
      have hnot := List.find?_eq_none.1 hfind _ (List.mem_reverse.2 hset)
      exact absurd (decide_eq_true rfl) hnot
    | some change =>
      have hchange : change ∈ changes := List.mem_reverse.1 (List.mem_of_find?_eq_some hfind)
      rw [h.eq_set hdistinct hentry hchange (List.find?_some hfind)]
      rfl
  · have hnone : lookup? key entries = none := by
      simpa [Option.isSome_iff_ne_none] using mt (mem_keys key).2 hkey
    rw [h.others key hkey, hnone]

/-! ## The mapping at the end -/

theorem sorted_foldl_apply (changes : List Change) {start : Entries Value} (h : start.Sorted) :
    (changes.foldl Change.apply start).Sorted :=
  List.foldlRecOn changes _ h fun _ h change _ => change.sorted_apply h

/-- The entries at the end hold what the changes describe. -/
theorem lookup_foldl_apply (changes : List Change) (start : Entries Value) (key : String) :
    lookup? key (changes.foldl Change.apply start) = content (lookup? · start) changes key := by
  induction changes generalizing start with
  | nil => rfl
  | cons change rest ih =>
    rw [List.foldl_cons, ih, content_cons]
    simp only [change.lookup_apply]

theorem Builds.foldl_eq (h : Builds entries changes) (hdistinct : Distinct entries) :
    changes.foldl Change.apply [] = ofList entries := by
  refine (sorted_foldl_apply changes List.Pairwise.nil).ext (sorted_ofList _) fun key => ?_
  rw [lookup_foldl_apply, lookup_ofList hdistinct]
  exact h.content_eq hdistinct key

/-- The edits make this mapping out of the empty one and leave the world as it is. -/
def Make (edits : List Edit) (w : World) (m : Value) : Prop :=
  ∃ ms, versions edits (.mapping []) w = some (ms, w) ∧ ms.getLast? = some m

/-- Edits run one after the other apply their changes one after the other. -/
theorem versions_last (edits : List Edit) (start : Entries Value) (w : World) :
    ∃ ms, versions edits (.mapping start) w = some (ms, w) ∧
      ms.getLast? = some (.mapping ((edits.map Edit.change).foldl Change.apply start)) := by
  induction edits generalizing start with
  | nil => exact ⟨_, rfl, rfl⟩
  | cons edit rest ih =>
    obtain ⟨later, hlater, hlast⟩ := ih (edit.change.apply start)
    refine ⟨.mapping start :: later, ?_, ?_⟩
    · rw [versions_cons, hlater, Option.map_some]
    · rw [List.getLast?_cons, hlast]
      rfl

theorem Make.unique {edits : List Edit} {w : World} {m m' : Value} (h : Make edits w m)
    (h' : Make edits w m') : m = m' := by
  obtain ⟨ms, hms, hlast⟩ := h
  obtain ⟨ms', hms', hlast'⟩ := h'
  obtain rfl : ms = ms' := by simpa using hms.symm.trans hms'
  exact Option.some.inj (hlast.symm.trans hlast')

theorem Builds.make {edits : List Edit} (h : Builds entries (edits.map Edit.change))
    (hdistinct : Distinct entries) (w : World) : Make edits w (.mapping (ofList entries)) := by
  obtain ⟨ms, hms, hlast⟩ := versions_last edits [] w
  rw [h.foldl_eq hdistinct] at hlast
  exact ⟨ms, hms, hlast⟩

/-! ## What it shows -/

/-- A mapping shows these entries and no others. Every observer answers from them, and renderings
and documents list each of them once, with the keys in ascending order. -/
structure Displays (m : Value) (entries : List (String × Value)) (keys : List String) : Prop where
  shows : Shows m (lookup? · entries) keys
  all : keys.Perm (entries.map Prod.fst)
  truthy : m.isTruthy = !entries.isEmpty
  text (resolved : FutureId → Bool) : m.inspect resolved =
    "\x7b" ++ ", ".intercalate (keys.map fun key =>
      key ++ ": " ++ ((lookup? key entries).getD .null).inspect resolved) ++ "\x7d"
  document (resolved : FutureId → Bool) : m.toDocument resolved =
    .object (keys.map fun key => (key, ((lookup? key entries).getD .null).toDocument resolved))

theorem displays_of_sorted {sorted : Entries Value} (hsorted : sorted.Sorted)
    (hdistinct : Distinct entries) (hlookup : ∀ key, lookup? key sorted = lookup? key entries) :
    Displays (.mapping sorted) entries (sorted.map Prod.fst) := by
  have hperm : sorted.Perm entries := hsorted.distinct.perm_of_lookup hdistinct hlookup
  have hfunction : (lookup? · sorted) = (lookup? · entries) := funext hlookup
  refine ⟨hfunction ▸ shows_of_sorted hsorted, hperm.map Prod.fst, ?_, fun resolved => ?_,
    fun resolved => ?_⟩
  · show _ = (Value.mapping entries).isTruthy
    rw [Value.isTruthy_mapping, Value.isTruthy_mapping, hperm.length_eq]
  · simp only [← hlookup]
    rw [map_keys_lookup hsorted fun key value => key ++ ": " ++ value.inspect resolved,
      Value.inspect, Value.inspectEntries_eq_map]
  · simp only [← hlookup]
    rw [map_keys_lookup hsorted fun key value => (key, value.toDocument resolved),
      Value.toDocument, Value.toMembers_eq_map]

theorem wellFormed_ofList (h : ∀ e ∈ entries, e.2.WellFormed) :
    (Value.mapping (ofList entries)).WellFormed :=
  .mapping (sorted_ofList _) fun e he => h e (mem_ofList he)

/-- In whatever order entries with distinct keys are set, and whatever is set and deleted on the
way, both runs end with the same mapping, which shows exactly these entries. Nor does it matter, at
any depth inside lists and mappings, in which order the tables of a run keep their entries. -/
theorem buildOrder_unobservable (hdistinct : Distinct entries)
    (hwell : ∀ e ∈ entries, e.2.WellFormed) {edits edits' : List Edit}
    (h : Builds entries (edits.map Edit.change)) (h' : Builds entries (edits'.map Edit.change))
    (w w' : World) :
    ∃ m keys, Make edits w m ∧ Make edits' w' m ∧ Displays m entries keys ∧
      ∀ layers : List Layer, (∀ layer ∈ layers, layer.WellFormed) →
        ∀ t, Value.StoredAs (Value.nested layers m) t →
          Value.Observed (Value.nested layers m) t := by
  have hdisplays := displays_of_sorted (sorted_ofList entries) hdistinct fun _ =>
    lookup_ofList hdistinct
  refine ⟨_, _, h.make hdistinct w, h'.make hdistinct w', hdisplays, fun layers hlayers t ht => ?_⟩
  exact ht.observed (Value.wellFormed_nested hlayers (wellFormed_ofList hwell))

/-- Two entries, not in the order of their keys. -/
def twoEntries : List (String × Value) := [("b", .int 1), ("a", .list [])]

/-- The entries set one after the other. -/
def forth : List Edit :=
  [⟨.set "b" (.int 1), "map_set", by decide⟩, ⟨.set "a" (.list []), "MapSet", by decide⟩]

/-- The entries set the other way round, with a third key on the way. -/
def back : List Edit :=
  [⟨.set "c" .null, "map_set", by decide⟩, ⟨.set "a" (.list []), "map_set", by decide⟩,
    ⟨.delete "c", "MapDelete", by decide⟩, ⟨.set "b" (.int 1), "map_set", by decide⟩]

theorem distinct_twoEntries : Distinct twoEntries := by
  decide

theorem wellFormed_twoEntries : ∀ e ∈ twoEntries, e.2.WellFormed := by
  have hlist : (Value.list []).WellFormed := .list fun v hv => by cases hv
  simpa [twoEntries] using And.intro (Value.WellFormed.int 1) hlist

theorem builds_forth : Builds twoEntries (forth.map Edit.change) where
  sets := .refl _
  others key hkey := by
    simp only [twoEntries, List.map_cons, List.map_nil, List.mem_cons, not_or] at hkey
    simp [forth, content, Change.concerns, Ne.symm hkey.1, Ne.symm hkey.2.1]

theorem builds_back : Builds twoEntries (back.map Edit.change) where
  sets := .swap _ _ _
  others key hkey := by
    simp only [twoEntries, List.map_cons, List.map_nil, List.mem_cons, not_or] at hkey
    by_cases hthird : "c" = key <;>
      simp [back, content, Change.concerns, Change.leaves, hthird, Ne.symm hkey.1, Ne.symm hkey.2.1]

/-- A list with the mapping inside, in a table that has the entries in the order in which they were
set. -/
theorem buildOrder_unobservable_backAndForth :
    Distinct twoEntries ∧ (∀ e ∈ twoEntries, e.2.WellFormed) ∧
    Builds twoEntries (forth.map Edit.change) ∧ Builds twoEntries (back.map Edit.change) ∧
    ∃ m, Make forth .bare m ∧ Make back .bare m ∧
      m.inspect (fun _ => false) = "\x7ba: [], b: 1\x7d" ∧
      Stored.text (fun _ => false) (.list [.mapping twoEntries]) =
        (Value.list [m]).inspect fun _ => false := by
  obtain ⟨m, keys, hforth, hback, _, hobserved⟩ := buildOrder_unobservable distinct_twoEntries
    wellFormed_twoEntries builds_forth builds_back .bare .bare
  obtain rfl : m = .mapping (ofList twoEntries) :=
    hforth.unique (builds_forth.make distinct_twoEntries .bare)
  have hperm : (ofList twoEntries).Perm twoEntries :=
    (sorted_ofList _).distinct.perm_of_lookup distinct_twoEntries fun _ =>
      lookup_ofList distinct_twoEntries
  have hstored : Value.StoredAs (.list [.mapping (ofList twoEntries)])
      (.list [.mapping twoEntries]) := by
    refine @Value.StoredAs.list [(.mapping (ofList twoEntries), .mapping twoEntries)] fun p hp => ?_
    obtain rfl := List.mem_singleton.1 hp
    exact Value.storedAs_of_perm (wellFormed_ofList wellFormed_twoEntries) hperm
  have hlayer : ∀ layer ∈ [Layer.list [] []], layer.WellFormed := fun layer h => by
    obtain rfl := List.mem_singleton.1 h
    exact fun v hv => by cases hv
  exact ⟨distinct_twoEntries, wellFormed_twoEntries, builds_forth, builds_back, _, hforth, hback,
    by decide +kernel, (hobserved _ hlayer _ hstored).text _⟩

end Mappings

end ScriptValues
