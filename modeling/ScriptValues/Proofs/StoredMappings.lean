import ScriptValues.Json.Bridge
import ScriptValues.Operations.Lists
import ScriptValues.Proofs.JsonBridge

/-!
# Mappings in any order

A table keeps its entries in an order of its own, which depends on how it was filled. A value is
stored with one table for each of its mappings. What is shown of the stored value is computed by
putting the entries of every table in the order of their keys, so it does not depend on the order in
which they are stored: it is what the value itself shows, whose mappings are in that order already.

* `Entries.Sorted.ext`: sorted entries are known by their look-ups.
* `Value.StoredAs`: a value with the entries of its mappings in any order.
* `Stored.text`, `Stored.document`, `Stored.sorted`: what is computed from a stored value.
* `Value.StoredAs.observed`: all of it is what is computed from the value.
-/

namespace ScriptValues

/-! ## Entries in any order -/

namespace Entries

variable {α β : Type}

def Distinct (entries : List (String × α)) : Prop := (entries.map Prod.fst).Nodup

instance (entries : List (String × α)) : Decidable (Distinct entries) :=
  inferInstanceAs (Decidable (entries.map Prod.fst).Nodup)

/-- The entries in the order of their keys. -/
def byKey (entries : List (String × α)) : Entries α := entries.mergeSort fun x y => x.1 ≤ y.1

variable {entries table : List (String × α)} {key : String} {value : α}

theorem Sorted.distinct (h : Sorted entries) : Distinct entries :=
  List.pairwise_map.2 (h.imp String.ne_of_lt)

theorem Distinct.lookup_iff (h : Distinct entries) :
    lookup? key entries = some value ↔ (key, value) ∈ entries := by
  refine ⟨mem_of_lookup, fun hmem => ?_⟩
  induction entries with
  | nil => cases hmem
  | cons first rest ih =>
    obtain ⟨k, v⟩ := first
    obtain ⟨hk, hrest⟩ := List.nodup_cons.1 h
    rw [lookup?]
    rcases List.mem_cons.1 hmem with heq | hmem
    · obtain ⟨rfl, rfl⟩ := Prod.mk.inj heq
      exact if_pos rfl
    · have hne : key ≠ k := fun heq => hk (List.mem_map.2 ⟨(key, value), hmem, heq⟩)
      rw [if_neg hne]
      exact ih hrest hmem

theorem Distinct.lookup_perm (h : Distinct entries) (hperm : entries.Perm table) :
    lookup? key entries = lookup? key table := by
  have htable : Distinct table := (hperm.map Prod.fst).nodup_iff.1 h
  refine Option.ext fun value => ?_
  rw [h.lookup_iff, htable.lookup_iff, hperm.mem_iff]

/-- Up to their order, entries are known by their look-ups. -/
theorem Distinct.perm_of_lookup (h : Distinct entries) (htable : Distinct table)
    (hlookup : ∀ key, lookup? key entries = lookup? key table) : entries.Perm table := by
  refine (List.perm_ext_iff_of_nodup h.of_map htable.of_map).2 fun entry => ?_
  rw [← h.lookup_iff, ← htable.lookup_iff, hlookup]

/-- Sorted entries are known by their look-ups. -/
theorem Sorted.ext (h : Sorted entries) (htable : Sorted table)
    (hlookup : ∀ key, lookup? key entries = lookup? key table) : entries = table :=
  (h.distinct.perm_of_lookup htable.distinct hlookup).eq_of_pairwise
    (fun _ _ _ _ hxy hyx => absurd hyx (String.lt_asymm hxy)) h htable

theorem sorted_byKey (h : Distinct entries) : Sorted (byKey entries) := by
  have hdistinct : Distinct (byKey entries) :=
    ((List.mergeSort_perm _ _).map Prod.fst).nodup_iff.2 h
  have hle : (byKey entries).Pairwise fun x y => decide (x.1 ≤ y.1) = true :=
    List.pairwise_mergeSort (fun x y z => by simpa using String.le_trans)
      (fun x y => by simpa using String.le_total x.1 y.1) entries
  refine (hle.and (List.pairwise_map.1 hdistinct)).imp fun {x y} h => ?_
  refine Decidable.byContradiction fun hlt => h.2 ?_
  exact String.le_antisymm (of_decide_eq_true h.1) (String.not_lt.1 hlt)

theorem lookup_byKey (h : Distinct entries) : lookup? key (byKey entries) = lookup? key entries :=
  (h.lookup_perm (List.mergeSort_perm _ _).symm).symm

theorem sorted_ofList (entries : List (String × α)) : Sorted (ofList entries) :=
  List.foldlRecOn entries _ List.Pairwise.nil fun _ h _ _ => h.insert

theorem lookup_foldl_insert (h : Distinct entries) (start : Entries α) :
    lookup? key (entries.foldl (fun entries (k, v) => insert k v entries) start) =
      (lookup? key entries).or (lookup? key start) := by
  induction entries generalizing start with
  | nil => rfl
  | cons first rest ih =>
    obtain ⟨k, v⟩ := first
    obtain ⟨hk, hrest⟩ := List.nodup_cons.1 h
    rw [List.foldl_cons, ih hrest, lookup_insert, lookup?]
    by_cases hkey : key = k
    · subst hkey
      have hnone : lookup? key rest = none := by
        simpa [Option.isSome_iff_ne_none] using mt (mem_keys key).2 hk
      rw [if_pos rfl, if_pos rfl, hnone]
      rfl
    · rw [if_neg hkey, if_neg hkey]

theorem lookup_ofList (h : Distinct entries) :
    lookup? key (ofList entries) = lookup? key entries := by
  rw [ofList, lookup_foldl_insert h]
  exact Option.or_none

def mapValues (f : α → β) (entries : List (String × α)) : List (String × β) :=
  entries.map fun entry => (entry.1, f entry.2)

theorem map_fst_mapValues (f : α → β) (entries : List (String × α)) :
    (mapValues f entries).map Prod.fst = entries.map Prod.fst := by
  rw [mapValues, List.map_map]
  rfl

theorem lookup_mapValues (f : α → β) :
    lookup? key (mapValues f entries) = (lookup? key entries).map f := by
  induction entries with
  | nil => rfl
  | cons first rest ih =>
    obtain ⟨k, v⟩ := first
    by_cases hk : key = k
    · simp [mapValues, lookup?, hk]
    · simpa [mapValues, lookup?, hk] using ih

/-- The order of the keys is not changed by what the values are replaced with. -/
theorem byKey_mapValues (f : α → β) (entries : List (String × α)) :
    byKey (mapValues f entries) = mapValues f (byKey entries) := by
  have hsort : (entries.mergeSort fun x y => x.1 ≤ y.1).map (fun e => (e.1, f e.2)) =
      (entries.map fun e => (e.1, f e.2)).mergeSort fun x y => x.1 ≤ y.1 :=
    List.map_mergeSort fun _ _ _ _ => rfl
  exact hsort.symm

theorem Sorted.mapValues (f : α → β) (h : Sorted entries) : Sorted (mapValues f entries) :=
  List.pairwise_map.2 h

theorem Distinct.mapValues (f : α → β) (h : Distinct entries) : Distinct (mapValues f entries) := by
  rw [Distinct, map_fst_mapValues]
  exact h

/-- Sorted entries that hold what is made of a table are what is made of the entries that it stores,
if under every key the same is made of both. -/
theorem eq_mapValues {γ : Type} {made : Entries γ} {stored : List (String × β)} {f : β → γ}
    {g : α → γ} (hmade : Sorted made) (hsorted : Sorted entries)
    (hlookup : ∀ key, lookup? key made = (lookup? key stored).map f)
    (hhas : ∀ key, (lookup? key stored).isSome = (lookup? key entries).isSome)
    (hvalue : ∀ key v t, lookup? key entries = some v → lookup? key stored = some t → f t = g v) :
    made = mapValues g entries := by
  refine hmade.ext (hsorted.mapValues g) fun key => ?_
  rw [hlookup, lookup_mapValues]
  have hkey := hhas key
  cases hstored : lookup? key stored with
  | none =>
    have hnone : lookup? key entries = none := by
      simpa [hstored, Option.isSome_iff_ne_none] using hkey.symm
    rw [hnone]
    rfl
  | some t =>
    rw [hstored] at hkey
    obtain ⟨v, hv⟩ := Option.isSome_iff_exists.1 hkey.symm
    rw [hv, Option.map_some, Option.map_some, hvalue key v t hv hstored]

end Entries

open Entries

/-! ## Stored values -/

namespace Value

/-- A value, and the same with the entries of every mapping in any order. -/
inductive StoredAs : Value → Value → Prop
  /-- What is neither a list nor a mapping is stored as it is. -/
  | scalar {v : Value} : v.asList? = none → v.asMapping? = none → StoredAs v v
  /-- A list is stored element by element. -/
  | list {pairs : List (Value × Value)} : (∀ p ∈ pairs, StoredAs p.1 p.2) →
      StoredAs (.list (pairs.map Prod.fst)) (.list (pairs.map Prod.snd))
  /-- A mapping is stored in a table that has its keys, each with what its value is stored as. -/
  | mapping {entries table : List (String × Value)} : Distinct table →
      (∀ key, (lookup? key table).isSome = (lookup? key entries).isSome) →
      (∀ key v t, lookup? key entries = some v → lookup? key table = some t → StoredAs v t) →
      StoredAs (.mapping entries) (.mapping table)

end Value

open Value (StoredAs)

namespace Stored

variable (resolved : FutureId → Bool)

mutual

/-- The rendering of a stored value: the entries of a table are put in the order of their keys. -/
def text : Value → String
  | .list items => "[" ++ ", ".intercalate (textItems items) ++ "]"
  | .mapping table =>
    "\x7b" ++ ", ".intercalate ((byKey (textEntries table)).map fun e => e.1 ++ ": " ++ e.2)
      ++ "\x7d"
  | v => v.inspect resolved

def textItems : List Value → List String
  | [] => []
  | v :: rest => text v :: textItems rest

def textEntries : List (String × Value) → List (String × String)
  | [] => []
  | (k, v) :: rest => (k, text v) :: textEntries rest

end

mutual

/-- The document of a stored value: the entries of a table are put into an object one by one. -/
def document : Value → Document
  | .list items => .array (documentItems items)
  | .mapping table => .object (Entries.ofList (documentEntries table))
  | v => v.toDocument resolved

def documentItems : List Value → List Document
  | [] => []
  | v :: rest => document v :: documentItems rest

def documentEntries : List (String × Value) → List (String × Document)
  | [] => []
  | (k, v) :: rest => (k, document v) :: documentEntries rest

end

/-- The elements of a stored list in the order of their renderings. -/
def sorted (items : List Value) : List Value :=
  let keyed := items.map fun v => (text resolved v, v)
  (keyed.mergeSort fun x y => x.1 ≤ y.1).map Prod.snd

/-- The renderings of the elements of a stored list with a separator between them. -/
def joined (separator : String) (items : List Value) : String :=
  separator.intercalate (items.map (text resolved))

variable {resolved}

theorem textItems_eq_map (items : List Value) :
    textItems resolved items = items.map (text resolved) := by
  induction items with
  | nil => rfl
  | cons v rest ih => rw [textItems, ih, List.map_cons]

theorem textEntries_eq (table : List (String × Value)) :
    textEntries resolved table = mapValues (text resolved) table := by
  induction table with
  | nil => rfl
  | cons e rest ih =>
    obtain ⟨k, v⟩ := e
    rw [textEntries, ih]
    rfl

theorem documentItems_eq_map (items : List Value) :
    documentItems resolved items = items.map (document resolved) := by
  induction items with
  | nil => rfl
  | cons v rest ih => rw [documentItems, ih, List.map_cons]

theorem documentEntries_eq (table : List (String × Value)) :
    documentEntries resolved table = mapValues (document resolved) table := by
  induction table with
  | nil => rfl
  | cons e rest ih =>
    obtain ⟨k, v⟩ := e
    rw [documentEntries, ih]
    rfl

end Stored

namespace Value

variable {v t : Value} {resolved : FutureId → Bool}

/-- A value is stored as itself if its mappings are in the order of their keys. -/
theorem storedAs_self (h : v.WellFormed) : StoredAs v v := by
  induction h with
  | @list items _ ih =>
    have hpairs : StoredAs (.list ((items.map fun v => (v, v)).map Prod.fst))
        (.list ((items.map fun v => (v, v)).map Prod.snd)) := by
      refine .list fun p hp => ?_
      obtain ⟨v, hv, rfl⟩ := List.mem_map.1 hp
      exact ih v hv
    simpa [Function.comp_def] using hpairs
  | @mapping entries hsorted _ ih =>
    refine .mapping hsorted.distinct (fun _ => rfl) fun key v t hv ht => ?_
    obtain rfl := Option.some.inj (hv.symm.trans ht)
    exact ih _ (mem_of_lookup hv)
  | _ => exact .scalar rfl rfl

/-- A table that has the entries of a mapping in another order stores it. -/
theorem storedAs_of_perm {entries table : List (String × Value)}
    (h : (Value.mapping entries).WellFormed) (hperm : entries.Perm table) :
    StoredAs (.mapping entries) (.mapping table) := by
  cases h with
  | mapping hsorted hentries =>
    have hlookup (key : String) : lookup? key entries = lookup? key table :=
      hsorted.distinct.lookup_perm hperm
    refine .mapping ((hperm.map Prod.fst).nodup_iff.1 hsorted.distinct)
      (fun key => by rw [hlookup]) fun key v t hv ht => ?_
    obtain rfl : v = t := Option.some.inj (hv.symm.trans ((hlookup key).trans ht))
    exact storedAs_self (hentries _ (mem_of_lookup hv))

/-- What is made of the stored elements of a list is what is made of its elements. -/
theorem map_halves {α : Type} {pairs : List (Value × Value)} {f g : Value → α}
    (h : ∀ p ∈ pairs, f p.2 = g p.1) :
    (pairs.map Prod.snd).map f = (pairs.map Prod.fst).map g := by
  rw [List.map_map, List.map_map]
  exact List.map_congr_left h

/-- A stored value is rendered as the value is. -/
theorem StoredAs.text_eq (h : StoredAs v t) (hv : v.WellFormed) :
    Stored.text resolved t = v.inspect resolved := by
  induction h with
  | @scalar v hlist hmapping =>
    cases v with
    | list => cases hlist
    | mapping => cases hmapping
    | _ => rfl
  | @list pairs _ ih =>
    cases hv with
    | list hitems =>
      rw [Stored.text, inspect, Stored.textItems_eq_map, inspectItems_eq_map,
        map_halves fun p hp => ih p hp (hitems _ (List.mem_map_of_mem hp))]
  | @mapping entries table htable hhas _ ih =>
    cases hv with
    | mapping hsorted hentries =>
      have hsame : byKey (mapValues (Stored.text resolved) table) =
          mapValues (inspect resolved) entries := by
        refine eq_mapValues (sorted_byKey (htable.mapValues _)) hsorted (fun key => ?_) hhas
          fun key v t hv ht => ih key v t hv ht (hentries _ (mem_of_lookup hv))
        rw [lookup_byKey (htable.mapValues _), lookup_mapValues]
      rw [Stored.text, inspect, Stored.textEntries_eq, hsame, inspectEntries_eq_map, mapValues,
        List.map_map]
      rfl

/-- A stored value has the document that the value has. -/
theorem StoredAs.document_eq (h : StoredAs v t) (hv : v.WellFormed) :
    Stored.document resolved t = v.toDocument resolved := by
  induction h with
  | @scalar v hlist hmapping =>
    cases v with
    | list => cases hlist
    | mapping => cases hmapping
    | _ => rfl
  | @list pairs _ ih =>
    cases hv with
    | list hitems =>
      rw [Stored.document, toDocument, Stored.documentItems_eq_map, toDocuments_eq_map,
        map_halves fun p hp => ih p hp (hitems _ (List.mem_map_of_mem hp))]
  | @mapping entries table htable hhas _ ih =>
    cases hv with
    | mapping hsorted hentries =>
      have hsame : Entries.ofList (mapValues (Stored.document resolved) table) =
          mapValues (toDocument resolved) entries := by
        refine eq_mapValues (sorted_ofList _) hsorted (fun key => ?_) hhas
          fun key v t hv ht => ih key v t hv ht (hentries _ (mem_of_lookup hv))
        rw [lookup_ofList (htable.mapValues _), lookup_mapValues]
      rw [Stored.document, toDocument, Stored.documentEntries_eq, hsame, toMembers_eq_map]
      rfl

/-- The entries of a stored mapping, in the order of their keys, are those of the mapping. -/
theorem keys_of_stored {entries table : List (String × Value)} (hsorted : Sorted entries)
    (htable : Distinct table)
    (hhas : ∀ key, (lookup? key table).isSome = (lookup? key entries).isSome) :
    (byKey table).map Prod.fst = entries.map Prod.fst := by
  have hunits : mapValues (fun _ => ()) (byKey table) = mapValues (fun _ => ()) entries := by
    refine eq_mapValues ((sorted_byKey htable).mapValues _) hsorted (fun key => ?_) hhas
      fun _ _ _ _ _ => rfl
    rw [lookup_mapValues, lookup_byKey htable]
  rw [← map_fst_mapValues fun _ => (), hunits, map_fst_mapValues]

/-- A table shows what a mapping does. -/
structure SameTable (entries table : List (String × Value)) : Prop where
  has (key : String) : Entries.has key table = Entries.has key entries
  get (key : String) :
    StoredAs ((lookup? key entries).getD .null) ((lookup? key table).getD .null)
  size : table.length = entries.length
  keys : (byKey table).map Prod.fst = entries.map Prod.fst
  /-- What is listed at a place in the order of the keys. -/
  listed {i : Nat} {e e' : String × Value} : entries[i]? = some e → (byKey table)[i]? = some e' →
    e'.1 = e.1 ∧ StoredAs e.2 e'.2

theorem sameTable_of_stored {entries table : List (String × Value)} (hsorted : Sorted entries)
    (h : StoredAs (.mapping entries) (.mapping table)) : SameTable entries table := by
  cases h with
  | scalar _ hmapping => cases hmapping
  | mapping htable hhas hvalue =>
    have hkeys := keys_of_stored hsorted htable hhas
    refine ⟨hhas, fun key => ?_, ?_, hkeys, fun {i e e'} he he' => ?_⟩
    · have h := hhas key
      cases hv : lookup? key entries with
      | none =>
        rw [hv, Option.isSome_none, Option.isSome_eq_false_iff, Option.isNone_iff_eq_none] at h
        rw [h]
        exact .scalar rfl rfl
      | some v =>
        rw [hv] at h
        obtain ⟨t, ht⟩ := Option.isSome_iff_exists.1 h
        rw [ht]
        exact hvalue key v t hv ht
    · have hlength := congrArg List.length hkeys
      simpa [byKey] using hlength
    · have hkey : e'.1 = e.1 := by
        have hat := congrArg (·[i]?) hkeys
        simpa [List.getElem?_map, he, he'] using hat
      refine ⟨hkey, hvalue e.1 e.2 e'.2 (hsorted.lookup_of_mem (List.mem_of_getElem? he)) ?_⟩
      have hmem : e' ∈ table := (List.mergeSort_perm _ _).mem_iff.1 (List.mem_of_getElem? he')
      exact htable.lookup_iff.2 (hkey ▸ hmem)

/-- A mapping counts as true if it has entries. -/
theorem isTruthy_mapping (entries : List (String × Value)) :
    (Value.mapping entries).isTruthy = decide (0 < entries.length) := by
  cases entries <;> rfl

/-- What is computed from a stored value is what is computed from the value. -/
structure Observed (v t : Value) : Prop where
  text (resolved : FutureId → Bool) : Stored.text resolved t = v.inspect resolved
  document (resolved : FutureId → Bool) : Stored.document resolved t = v.toDocument resolved
  truthy : t.isTruthy = v.isTruthy
  table {entries table : List (String × Value)} : v = .mapping entries → t = .mapping table →
    SameTable entries table
  joined {items stored : List Value} : v = .list items → t = .list stored →
    ∀ resolved separator, Stored.joined resolved separator stored =
      separator.intercalate (items.map (inspect resolved))
  sorted {items stored : List Value} : v = .list items → t = .list stored →
    ∀ resolved, StoredAs (.list (Lists.sorted resolved items))
      (.list (Stored.sorted resolved stored))

/-- Pairs that are sorted by the keys of one half bring the other half along. -/
theorem map_snd_byKey {pairs : List (Value × Value)} (half : Value × Value → Value)
    (key : Value → String) (h : ∀ p ∈ pairs, key (half p) = p.1.inspect resolved) :
    (byKey ((pairs.map half).map fun v => (key v, v))).map Prod.snd =
      ((byKey (pairs.map fun p => (p.1.inspect resolved, p))).map Prod.snd).map half := by
  have hkeyed : ((pairs.map half).map fun v => (key v, v)) =
      mapValues half (pairs.map fun p => (p.1.inspect resolved, p)) := by
    rw [mapValues, List.map_map, List.map_map]
    exact List.map_congr_left fun p hp => Prod.ext (h p hp) rfl
  rw [hkeyed, byKey_mapValues, mapValues, List.map_map, List.map_map]
  rfl

/-- Sorting stored elements gives what sorting the elements gives, stored. -/
theorem sorted_of_stored {pairs : List (Value × Value)} (h : ∀ p ∈ pairs, StoredAs p.1 p.2)
    (hwell : ∀ p ∈ pairs, p.1.WellFormed) :
    StoredAs (.list (Lists.sorted resolved (pairs.map Prod.fst)))
      (.list (Stored.sorted resolved (pairs.map Prod.snd))) := by
  have hfirst : Lists.sorted resolved (pairs.map Prod.fst) = _ :=
    map_snd_byKey Prod.fst (inspect resolved) fun _ _ => rfl
  have hsecond : Stored.sorted resolved (pairs.map Prod.snd) = _ :=
    map_snd_byKey Prod.snd (Stored.text resolved) fun p hp => (h p hp).text_eq (hwell p hp)
  rw [hfirst, hsecond]
  refine .list fun p hp => ?_
  obtain ⟨entry, hentry, rfl⟩ := List.mem_map.1 hp
  obtain ⟨p, hmem, rfl⟩ := List.mem_map.1 ((List.mergeSort_perm _ _).mem_iff.1 hentry)
  exact h p hmem

/-- However the mappings inside a value are stored, what is computed is the same. -/
theorem StoredAs.observed (h : StoredAs v t) (hv : v.WellFormed) : Observed v t where
  text _ := h.text_eq hv
  document _ := h.document_eq hv
  truthy := by
    cases h with
    | scalar => rfl
    | @list pairs => cases pairs <;> rfl
    | @mapping entries table htable hhas hvalue =>
      cases hv with
      | mapping hsorted _ =>
        have hsize := (sameTable_of_stored hsorted (.mapping htable hhas hvalue)).size
        rw [isTruthy_mapping, isTruthy_mapping, hsize]
  table := by
    rintro entries table rfl rfl
    cases hv with
    | mapping hsorted _ => exact sameTable_of_stored hsorted h
  joined := by
    rintro items stored rfl rfl resolved separator
    cases hv with
    | list hitems =>
      cases h with
      | scalar hlist => cases hlist
      | @list pairs hpairs =>
        rw [Stored.joined, map_halves fun p hp =>
          (hpairs p hp).text_eq (hitems _ (List.mem_map_of_mem hp))]
  sorted := by
    rintro items stored rfl rfl resolved
    cases hv with
    | list hitems =>
      cases h with
      | scalar hlist => cases hlist
      | @list pairs hpairs =>
        exact sorted_of_stored hpairs fun p hp => hitems _ (List.mem_map_of_mem hp)

end Value

end ScriptValues
