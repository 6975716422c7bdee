import ScriptValues.Json.Bridge
import ScriptValues.Proofs.CheckedIntegers
import ScriptValues.Proofs.DoubleBits

/-!
# From documents to values and back

A document that becomes a value and a document again is the same but for the integers that do not
fit in 64 bits with a sign: each of them is now the double that its value is. What comes back has
only integers that fit, so doing it again changes nothing.

* `Document.WellFormed`: the documents that there are.
* `Document.Narrows`: one document is another with its large integers replaced.
* `Document.roundTrip_narrows`: the law of the way there and back.
-/

namespace ScriptValues

namespace Document

/-- The documents that there are: an integer has 64 bits, signed or unsigned, a double is finite,
and the members of an object stand in ascending order of their names, at every depth. -/
inductive WellFormed : Document → Prop
  | null : WellFormed .null
  | bool (b : Bool) : WellFormed (.bool b)
  | integer {n : Int} : Double.IsWord n → WellFormed (.integer n)
  | double {x : Float} : Double.IsFinite x → WellFormed (.double x)
  | text (s : String) : WellFormed (.text s)
  | array {items : List Document} : (∀ item ∈ items, WellFormed item) → WellFormed (.array items)
  | object {members : List (String × Document)} : Entries.Sorted members →
      (∀ m ∈ members, WellFormed m.2) → WellFormed (.object members)

/-- One document is the other with each integer that does not fit replaced by the double that its
value is, and with nothing else changed: not the lengths and the order of arrays, nor the names of
members, nor any text or other number. -/
inductive Narrows : Document → Document → Prop
  | null : Narrows .null .null
  | bool (b : Bool) : Narrows (.bool b) (.bool b)
  | integer {n : Int} : Checked.Fits n → Narrows (.integer n) (.integer n)
  | wide {n : Int} {x : Float} : ¬ Checked.Fits n → toValue (.integer n) = .float x →
      Narrows (.integer n) (.double x)
  | double (x : Float) : Narrows (.double x) (.double x)
  | text (s : String) : Narrows (.text s) (.text s)
  | array {items items' : List Document} : items.length = items'.length →
      (∀ (i : Nat) item item', items[i]? = some item → items'[i]? = some item' → Narrows item item') →
        Narrows (.array items) (.array items')
  | object {members members' : List (String × Document)} :
      members.map Prod.fst = members'.map Prod.fst →
      (∀ (i : Nat) m m', members[i]? = some m → members'[i]? = some m' → Narrows m.2 m'.2) →
        Narrows (.object members) (.object members')

mutual

/-- The integers of a document, at any depth. -/
def integers : Document → List Int
  | .integer n => [n]
  | .array items => integersOfItems items
  | .object members => integersOfMembers members
  | _ => []

def integersOfItems : List Document → List Int
  | [] => []
  | item :: rest => integers item ++ integersOfItems rest

def integersOfMembers : List (String × Document) → List Int
  | [] => []
  | (_, item) :: rest => integers item ++ integersOfMembers rest

end

theorem integersOfItems_eq_flatMap (items : List Document) :
    integersOfItems items = items.flatMap integers := by
  induction items with
  | nil => rfl
  | cons item rest ih => rw [integersOfItems, ih, List.flatMap_cons]

theorem integersOfMembers_eq_flatMap (members : List (String × Document)) :
    integersOfMembers members = members.flatMap fun m => m.2.integers := by
  induction members with
  | nil => rfl
  | cons m rest ih =>
    obtain ⟨name, item⟩ := m
    rw [integersOfMembers, ih, List.flatMap_cons]

theorem mem_integers_array {items : List Document} {n : Int} :
    n ∈ (array items).integers ↔ ∃ item ∈ items, n ∈ item.integers := by
  rw [integers, integersOfItems_eq_flatMap, List.mem_flatMap]

theorem mem_integers_object {members : List (String × Document)} {n : Int} :
    n ∈ (object members).integers ↔ ∃ m ∈ members, n ∈ m.2.integers := by
  rw [integers, integersOfMembers_eq_flatMap, List.mem_flatMap]

/-! ## There and back -/

def roundTrip (resolved : FutureId → Bool) (j : Document) : Document :=
  j.toValue.toDocument resolved

theorem toValues_eq_map (items : List Document) : toValues items = items.map toValue := by
  induction items with
  | nil => rfl
  | cons item rest ih => rw [toValues, ih, List.map_cons]

theorem toEntries_eq_map (members : List (String × Document)) :
    toEntries members = members.map fun m => (m.1, m.2.toValue) := by
  induction members with
  | nil => rfl
  | cons m rest ih =>
    obtain ⟨name, item⟩ := m
    rw [toEntries, ih, List.map_cons]

end Document

theorem Value.toDocuments_eq_map (resolved : FutureId → Bool) (items : List Value) :
    toDocuments resolved items = items.map (toDocument resolved) := by
  induction items with
  | nil => rfl
  | cons v rest ih => rw [toDocuments, ih, List.map_cons]

theorem Value.toMembers_eq_map (resolved : FutureId → Bool) (entries : List (String × Value)) :
    toMembers resolved entries = entries.map fun e => (e.1, e.2.toDocument resolved) := by
  induction entries with
  | nil => rfl
  | cons e rest ih =>
    obtain ⟨k, v⟩ := e
    rw [toMembers, ih, List.map_cons]

namespace Document

variable {resolved : FutureId → Bool} {j : Document}

theorem roundTrip_array (resolved : FutureId → Bool) (items : List Document) :
    roundTrip resolved (.array items) = .array (items.map (roundTrip resolved)) := by
  rw [roundTrip, toValue, Value.toDocument, toValues_eq_map, Value.toDocuments_eq_map, List.map_map]
  rfl

theorem roundTrip_object (resolved : FutureId → Bool) (members : List (String × Document)) :
    roundTrip resolved (.object members) =
      .object (members.map fun m => (m.1, roundTrip resolved m.2)) := by
  rw [roundTrip, toValue, Value.toDocument, toEntries_eq_map, Value.toMembers_eq_map, List.map_map]
  rfl

theorem toDocument_float {x : Float} (h : Double.IsFinite x) :
    (Value.float x).toDocument resolved = .double x := by
  obtain ⟨negative, significand, scale, hx⟩ := h
  rw [Value.toDocument, hx]

theorem toValue_integer_of_fits {n : Int} (h : Checked.Fits n) :
    toValue (.integer n) = .int (Int64.ofInt n) := by
  rw [toValue, Checked.ofInt_of_fits h]

theorem toValue_integer_of_not_fits {n : Int} (h : ¬ Checked.Fits n) :
    toValue (.integer n) = .float (Double.ofInt n) := by
  rw [toValue, Checked.ofInt_eq_none.2 h]

theorem roundTrip_integer_of_fits {n : Int} (h : Checked.Fits n) :
    roundTrip resolved (.integer n) = .integer n := by
  rw [roundTrip, toValue_integer_of_fits h, Value.toDocument, Checked.toInt_ofInt h]

theorem roundTrip_integer_of_not_fits {n : Int} (hn : Double.IsWord n) (h : ¬ Checked.Fits n) :
    roundTrip resolved (.integer n) = .double (Double.ofInt n) := by
  rw [roundTrip, toValue_integer_of_not_fits h, toDocument_float (Double.isFinite_ofInt hn)]

theorem roundTrip_double {x : Float} (h : Double.IsFinite x) :
    roundTrip resolved (.double x) = .double x :=
  toDocument_float h

/-- The round trip replaces the integers that do not fit, and nothing else. -/
theorem WellFormed.narrows (h : j.WellFormed) : Narrows j (roundTrip resolved j) := by
  induction h with
  | null => exact .null
  | bool b => exact .bool b
  | @integer n hn =>
    by_cases hfits : Checked.Fits n
    · rw [roundTrip_integer_of_fits hfits]
      exact .integer hfits
    · rw [roundTrip_integer_of_not_fits hn hfits]
      exact .wide hfits (toValue_integer_of_not_fits hfits)
  | double hx =>
    rw [roundTrip_double hx]
    exact .double _
  | text s => exact .text s
  | array _ ih =>
    rw [roundTrip_array]
    refine .array (List.length_map ..).symm fun i item item' hi hi' => ?_
    rw [List.getElem?_map, hi] at hi'
    obtain rfl := Option.some.inj hi'
    exact ih item (List.mem_of_getElem? hi)
  | object _ _ ih =>
    rw [roundTrip_object]
    refine .object (by rw [List.map_map]; rfl) fun i m m' hi hi' => ?_
    rw [List.getElem?_map, hi] at hi'
    obtain rfl := Option.some.inj hi'
    exact ih m (List.mem_of_getElem? hi)

/-- What comes back is a document that there is. -/
theorem WellFormed.roundTrip (h : j.WellFormed) : (roundTrip resolved j).WellFormed := by
  induction h with
  | null => exact .null
  | bool b => exact .bool b
  | @integer n hn =>
    by_cases hfits : Checked.Fits n
    · rw [roundTrip_integer_of_fits hfits]
      exact .integer hn
    · rw [roundTrip_integer_of_not_fits hn hfits]
      exact .double (Double.isFinite_ofInt hn)
  | double hx =>
    rw [roundTrip_double hx]
    exact .double hx
  | text s => exact .text s
  | array _ ih =>
    rw [roundTrip_array]
    refine .array fun item hitem => ?_
    obtain ⟨item, hmem, rfl⟩ := List.mem_map.1 hitem
    exact ih item hmem
  | object hsorted _ ih =>
    rw [roundTrip_object]
    refine .object (List.pairwise_map.2 hsorted) fun m hm => ?_
    obtain ⟨m, hmem, rfl⟩ := List.mem_map.1 hm
    exact ih m hmem

/-- Every integer that comes back fits. -/
theorem WellFormed.fits_roundTrip (h : j.WellFormed) :
    ∀ n ∈ (Document.roundTrip resolved j).integers, Checked.Fits n := by
  induction h with
  | null => exact fun n hn => absurd hn List.not_mem_nil
  | bool b => exact fun n hn => absurd hn List.not_mem_nil
  | @integer m hm =>
    intro n hn
    by_cases hfits : Checked.Fits m
    · rw [roundTrip_integer_of_fits hfits] at hn
      rwa [List.mem_singleton.1 hn]
    · rw [roundTrip_integer_of_not_fits hm hfits] at hn
      exact absurd hn List.not_mem_nil
  | double hx =>
    intro n hn
    rw [roundTrip_double hx] at hn
    exact absurd hn List.not_mem_nil
  | text s => exact fun n hn => absurd hn List.not_mem_nil
  | array _ ih =>
    intro n hn
    rw [roundTrip_array, mem_integers_array] at hn
    obtain ⟨item, hitem, hn⟩ := hn
    obtain ⟨item, hmem, rfl⟩ := List.mem_map.1 hitem
    exact ih item hmem n hn
  | object _ _ ih =>
    intro n hn
    rw [roundTrip_object, mem_integers_object] at hn
    obtain ⟨m, hm, hn⟩ := hn
    obtain ⟨m, hmem, rfl⟩ := List.mem_map.1 hm
    exact ih m hmem n hn

/-- A document whose integers all fit comes back as it is. -/
theorem WellFormed.roundTrip_eq (h : j.WellFormed) (hfits : ∀ n ∈ j.integers, Checked.Fits n) :
    Document.roundTrip resolved j = j := by
  induction h with
  | null => rfl
  | bool b => rfl
  | @integer n _ => exact roundTrip_integer_of_fits (hfits n (List.mem_singleton.2 rfl))
  | double hx => exact roundTrip_double hx
  | text s => rfl
  | @array items _ ih =>
    rw [roundTrip_array]
    have hsame : items.map (Document.roundTrip resolved) = items.map id := by
      refine List.map_congr_left fun item hitem => ?_
      exact ih item hitem fun n hn => hfits n (mem_integers_array.2 ⟨item, hitem, hn⟩)
    rw [hsame, List.map_id]
  | @object members _ _ ih =>
    rw [roundTrip_object]
    have hsame :
        members.map (fun m => (m.1, Document.roundTrip resolved m.2)) = members.map id := by
      refine List.map_congr_left fun m hm => ?_
      have hm' := ih m hm fun n hn => hfits n (mem_integers_object.2 ⟨m, hm, hn⟩)
      exact Prod.ext rfl hm'
    rw [hsame, List.map_id]

/-- A document that becomes a value and a document again has its large integers replaced by the
doubles that their values are, and nothing else changed. It is the same document if all its integers
fit, and the second time it is the same in any case. -/
theorem roundTrip_narrows (resolved : FutureId → Bool) (j : Document) (h : j.WellFormed) :
    Narrows j (j.toValue.toDocument resolved) ∧
      ((∀ n ∈ j.integers, Checked.Fits n) → j.toValue.toDocument resolved = j) ∧
      (j.toValue.toDocument resolved).toValue.toDocument resolved =
        j.toValue.toDocument resolved :=
  ⟨h.narrows, h.roundTrip_eq, h.roundTrip.roundTrip_eq h.fits_roundTrip⟩

/-- A negative zero and a large integer in an array under a name. -/
def zeroAndLarge : Document :=
  .object [("a", .array [.double (Double.ofBits (2 ^ 63)), .integer (2 ^ 63)])]

theorem wellFormed_zeroAndLarge : zeroAndLarge.WellFormed := by
  have hzero : Double.IsFinite (Double.ofBits (2 ^ 63)) :=
    ⟨true, 0, 0, Double.decode_ofBits (by decide) (by decide)⟩
  refine .object (List.pairwise_singleton _ _) fun m hm => ?_
  rw [List.mem_singleton.1 hm]
  refine .array fun item hitem => ?_
  rcases List.mem_cons.1 hitem with rfl | hitem
  · exact .double hzero
  · rw [List.mem_singleton.1 hitem]
    exact .integer ⟨by decide, by decide⟩

theorem narrows_zeroAndLarge :
    zeroAndLarge.WellFormed ∧
      Narrows zeroAndLarge (zeroAndLarge.toValue.toDocument fun _ => false) :=
  ⟨wellFormed_zeroAndLarge, (roundTrip_narrows _ zeroAndLarge wellFormed_zeroAndLarge).1⟩

end Document

end ScriptValues
