import ScriptValues.Proofs.Calls

/-!
# Mappings through their edits

A sequence of edits makes one mapping from another, and every one of them stays what it was. Each is
a finite map: a key holds what the last edit that concerns it left there, or what it held at the
start if there is none. All observers show this one map, in ascending order of the keys.

* `Mappings.content`: the finite map that a sequence of edits describes.
* `Mappings.Shows`: what every observer of a mapping answers.
* `Mappings.versions_show`: after any edits, every version shows the map that is described.
-/

namespace ScriptValues

namespace Mappings

/-! ## Calls by name -/

def spellings : Computation → List String
  | .mapSet => ["map_set", "MapSet"]
  | .mapDelete => ["map_delete", "MapDelete"]
  | .mapClear => ["map_clear"]
  | .mapGet => ["map_get", "MapGet"]
  | .mapHas => ["map_has", "MapHas"]
  | .mapKeys => ["map_keys", "MapKeys"]
  | .mapValues => ["map_values", "MapValues"]
  | .mapEntries => ["map_entries"]
  | .mapSize => ["map_size"]
  | .len => ["len"]
  | _ => []

/-- Calls the builtin of a name, if there is one. -/
def callNamed (name : String) (values : List Value) (w : World) : Option (Result Value × World) :=
  (Builtin.lookup? name).map fun b => b.tryCall values w

/-- Under each of its names a computation gives this answer in every world, which it leaves as it
is. -/
def Answers (c : Computation) (values : List Value) (answer : Value) : Prop :=
  ∀ name ∈ spellings c, ∀ w, callNamed name values w = some (.ok answer, w)

theorem lookup_of_spelling {c : Computation} :
    ∀ name ∈ spellings c, Builtin.lookup? name = some ⟨name, .compute c⟩ := by
  cases c <;> decide +kernel

theorem answers_of_run {c : Computation} {values : List Value} {answer : Value}
    (harity : c.arity.accepts values.length)
    (hrun : ∀ resolved name, c.run resolved ⟨name, values⟩ = .ok answer) :
    Answers c values answer := by
  intro name hname w
  have haccepts : Builtin.arity ⟨name, .compute c⟩ |>.accepts values.length := harity
  rw [callNamed, lookup_of_spelling name hname, Option.map_some,
    Builtin.tryCall_of_accepts haccepts]
  simp only [Operation.run, Step.bind_run, Step.get_run, Step.ofResult_run, hrun]

/-! ## Edits -/

inductive Change where
  | set (key : String) (value : Value)
  | delete (key : String)
  | clear

namespace Change

def computation : Change → Computation
  | .set .. => .mapSet
  | .delete _ => .mapDelete
  | .clear => .mapClear

def arguments (m : Value) : Change → List Value
  | .set key value => [m, .string key, value]
  | .delete key => [m, .string key]
  | .clear => [m]

/-- Whether the change decides what a key holds. -/
def concerns (key : String) : Change → Bool
  | .set changed _ | .delete changed => changed = key
  | .clear => true

/-- What the keys hold that the change concerns. -/
def leaves : Change → Option Value
  | .set _ value => some value
  | .delete _ | .clear => none

def apply (entries : Entries Value) : Change → Entries Value
  | .set key value => Entries.insert key value entries
  | .delete key => Entries.erase key entries
  | .clear => []

variable {entries : Entries Value}

theorem lookup_apply (change : Change) (key : String) :
    Entries.lookup? key (change.apply entries) =
      if change.concerns key then change.leaves else Entries.lookup? key entries := by
  cases change with
  | set changed value => simp [apply, concerns, leaves, Entries.lookup_insert, eq_comm]
  | delete changed => simp [apply, concerns, leaves, Entries.lookup_erase, eq_comm]
  | clear => rfl

theorem sorted_apply (change : Change) (h : entries.Sorted) : (change.apply entries).Sorted := by
  cases change with
  | set key value => exact h.insert
  | delete key => exact h.erase
  | clear => exact List.Pairwise.nil

theorem answers_apply (change : Change) :
    Answers change.computation (change.arguments (.mapping entries))
      (.mapping (change.apply entries)) := by
  cases change <;> exact answers_of_run rfl fun _ _ => rfl

end Change

/-- A change, called by one of its names. -/
structure Edit where
  change : Change
  name : String
  named : name ∈ spellings change.computation

/-- Calls the edits one after the other, each on what the one before answered: all mappings from the
first to the last, and the world after the calls. -/
def versions : List Edit → Value → World → Option (List Value × World)
  | [], m, w => some ([m], w)
  | edit :: rest, m, w =>
    match callNamed edit.name (edit.change.arguments m) w with
    | some (.ok next, w) => (versions rest next w).map fun (later, w) => (m :: later, w)
    | _ => none

/-! ## The map that is described -/

/-- What the keys hold after some changes. The last change that concerns a key counts. -/
def content (start : String → Option Value) (changes : List Change) (key : String) : Option Value :=
  match changes.reverse.find? (Change.concerns key) with
  | some change => change.leaves
  | none => start key

variable {start : String → Option Value}

theorem content_cons (change : Change) (rest : List Change) :
    content start (change :: rest) =
      content (fun key => if change.concerns key then change.leaves else start key) rest := by
  funext key
  unfold content
  rw [List.reverse_cons, List.find?_append]
  cases rest.reverse.find? (Change.concerns key) with
  | some last => rfl
  | none => cases hconcerns : change.concerns key <;> simp [hconcerns]

/-! ## What the observers answer -/

/-- What the observers of a mapping answer if its keys hold this content. -/
structure Shows (m : Value) (content : String → Option Value) (keys : List String) : Prop where
  /-- The keys are in strictly ascending order, so there is none twice. -/
  ascending : keys.Pairwise (· < ·)
  present (key : String) : key ∈ keys ↔ (content key).isSome
  has (key : String) : Answers .mapHas [m, .string key] (.bool (content key).isSome)
  get (key : String) : Answers .mapGet [m, .string key] ((content key).getD .null)
  size : Answers .mapSize [m] (.int (Int64.ofNat keys.length))
  len : Answers .len [m] (.int (Int64.ofNat keys.length))
  keysListed : Answers .mapKeys [m] (.list (keys.map .string))
  valuesListed : Answers .mapValues [m] (.list (keys.map fun key => (content key).getD .null))
  entriesListed : Answers .mapEntries [m]
    (.list (keys.map fun key => .list [.string key, (content key).getD .null]))
  /-- Deleting a key that is absent answers the same mapping. -/
  absentDeleted (key : String) : content key = none → Answers .mapDelete [m, .string key] m

/-- Every entry is what the look-up of its key finds. -/
theorem map_keys_lookup {α : Type} {entries : Entries Value} (h : entries.Sorted)
    (f : String → Value → α) :
    (entries.map Prod.fst).map (fun key => f key ((Entries.lookup? key entries).getD .null)) =
      entries.map fun entry => f entry.1 entry.2 := by
  rw [List.map_map]
  refine List.map_congr_left fun entry hentry => ?_
  show f entry.1 _ = _
  rw [h.lookup_of_mem hentry, Option.getD_some]

theorem shows_of_sorted {entries : Entries Value} (h : entries.Sorted) :
    Shows (.mapping entries) (Entries.lookup? · entries) (entries.map Prod.fst) where
  ascending := List.pairwise_map.2 h
  present := Entries.mem_keys
  has _ := answers_of_run rfl fun _ _ => rfl
  get _ := answers_of_run rfl fun _ _ => rfl
  size := by
    rw [List.length_map]
    exact answers_of_run rfl fun _ _ => rfl
  len := by
    rw [List.length_map]
    exact answers_of_run rfl fun _ _ => rfl
  keysListed := by
    rw [List.map_map]
    exact answers_of_run rfl fun _ _ => rfl
  valuesListed := by
    rw [map_keys_lookup h fun _ value => value]
    exact answers_of_run rfl fun _ _ => rfl
  entriesListed := by
    rw [map_keys_lookup h fun key value => Value.list [.string key, value]]
    exact answers_of_run rfl fun _ _ => rfl
  absentDeleted key hkey := by
    have hsame : Entries.erase key entries = entries := Entries.erase_of_lookup_eq_none hkey
    refine answers_of_run rfl fun _ name => ?_
    show (Except.ok (Value.mapping (Entries.erase key entries)) : Result Value) = _
    rw [hsame]

/-! ## Any sequence of edits -/

theorem versions_cons (edit : Edit) (rest : List Edit) (entries : Entries Value) (w : World) :
    versions (edit :: rest) (.mapping entries) w =
      (versions rest (.mapping (edit.change.apply entries)) w).map
        fun (later, w) => (.mapping entries :: later, w) := by
  rw [versions, edit.change.answers_apply edit.name edit.named w]

/-- Any edits of a mapping succeed and leave the world as it is. The start and every mapping that
they make on the way show the map that the edits up to there describe. -/
theorem versions_show {entries : Entries Value} (h : entries.Sorted) (edits : List Edit)
    (w : World) :
    ∃ ms, versions edits (.mapping entries) w = some (ms, w) ∧ ms.length = edits.length + 1 ∧
      ∀ i m, ms[i]? = some m → ∃ keys,
        Shows m (content (Entries.lookup? · entries) ((edits.take i).map Edit.change)) keys := by
  induction edits generalizing entries with
  | nil =>
    refine ⟨[.mapping entries], rfl, rfl, fun i m hm => ?_⟩
    obtain ⟨hi, rfl⟩ := List.getElem?_eq_some_iff.1 hm
    obtain rfl : i = 0 := by simpa using hi
    exact ⟨_, shows_of_sorted h⟩
  | cons edit rest ih =>
    obtain ⟨later, hlater, hlength, hshows⟩ := ih (edit.change.sorted_apply h)
    refine ⟨.mapping entries :: later, ?_, by simp [hlength], fun i m hm => ?_⟩
    · rw [versions_cons, hlater, Option.map_some]
    · cases i with
      | zero =>
        obtain rfl := Option.some.inj hm
        exact ⟨_, shows_of_sorted h⟩
      | succ i =>
        obtain ⟨keys, hkeys⟩ := hshows i m hm
        simp only [edit.change.lookup_apply] at hkeys
        rw [List.take_succ_cons, List.map_cons, content_cons]
        exact ⟨keys, hkeys⟩

/-- A key that holds null is present, and one that was deleted is not, although both read as null;
the mapping from before the deletion still holds it. -/
theorem versions_show_null_and_absent :
    Entries.Sorted [("a", Value.int 1)] ∧
    ∃ start set last, versions [⟨.set "b" .null, "MapSet", by decide⟩,
        ⟨.delete "a", "map_delete", by decide⟩] (.mapping [("a", .int 1)]) .bare =
          some ([start, set, last], .bare) ∧
      callNamed "map_has" [last, .string "b"] .bare = some (.ok (.bool true), .bare) ∧
      callNamed "MapGet" [last, .string "b"] .bare = some (.ok .null, .bare) ∧
      callNamed "MapHas" [last, .string "a"] .bare = some (.ok (.bool false), .bare) ∧
      callNamed "map_get" [last, .string "a"] .bare = some (.ok .null, .bare) ∧
      callNamed "map_get" [set, .string "a"] .bare = some (.ok (.int 1), .bare) := by
  have hsorted : Entries.Sorted [("a", Value.int 1)] := List.pairwise_singleton _ _
  obtain ⟨ms, hms, hlength, hshows⟩ := versions_show hsorted
    [⟨.set "b" .null, "MapSet", by decide⟩, ⟨.delete "a", "map_delete", by decide⟩] .bare
  match ms, hlength with
  | [start, set, last], _ =>
    obtain ⟨_, hset⟩ := hshows 1 set rfl
    obtain ⟨_, hlast⟩ := hshows 2 last rfl
    exact ⟨hsorted, start, set, last, hms, hlast.has "b" _ (by decide) _,
      hlast.get "b" _ (by decide) _, hlast.has "a" _ (by decide) _, hlast.get "a" _ (by decide) _,
      hset.get "a" _ (by decide) _⟩

end Mappings

end ScriptValues
