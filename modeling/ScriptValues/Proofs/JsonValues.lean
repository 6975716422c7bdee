import ScriptValues.Proofs.JsonBridge

/-!
# From values to documents and back

Four kinds of values have no counterpart in a document, and each is lost in one way: a double that
is not finite comes back as null, an error as a mapping with its message, a builtin and a future as
the text of their rendering. All else comes back as it was, at every depth, so that a second
document of the same value is the first one.

* `Value.Flattens`: one value is another with these replacements.
* `Value.flattens_iff`: the law of the way there and back.
-/

namespace ScriptValues

namespace Value

/-- One value is the other with what documents lack replaced, and with nothing else changed: not the
lengths and the order of lists, nor the keys of mappings, nor any other scalar. -/
inductive Flattens (resolved : FutureId → Bool) : Value → Value → Prop
  | null : Flattens resolved .null .null
  | bool (b : Bool) : Flattens resolved (.bool b) (.bool b)
  | int (n : Int64) : Flattens resolved (.int n) (.int n)
  | float {x : Float} : Double.IsFinite x → Flattens resolved (.float x) (.float x)
  | notFinite {x : Float} : ¬ Double.IsFinite x → Flattens resolved (.float x) .null
  | string (s : String) : Flattens resolved (.string s) (.string s)
  | list {items items' : List Value} : items.length = items'.length →
      (∀ (i : Nat) v v', items[i]? = some v → items'[i]? = some v' → Flattens resolved v v') →
        Flattens resolved (.list items) (.list items')
  | mapping {entries entries' : List (String × Value)} :
      entries.map Prod.fst = entries'.map Prod.fst →
      (∀ (i : Nat) e e', entries[i]? = some e → entries'[i]? = some e' →
        Flattens resolved e.2 e'.2) →
        Flattens resolved (.mapping entries) (.mapping entries')
  | error (message : String) :
      Flattens resolved (.error message) (.mapping [("error", .string message)])
  | builtin (b : Builtin) :
      Flattens resolved (.builtin b) (.string (inspect resolved (.builtin b)))
  | future (id : FutureId) :
      Flattens resolved (.future id) (.string (inspect resolved (.future id)))

variable {resolved resolved' : FutureId → Bool}

/-! ## There and back -/

def roundTrip (resolved : FutureId → Bool) (v : Value) : Value :=
  (v.toDocument resolved).toValue

theorem roundTrip_list (items : List Value) :
    roundTrip resolved (.list items) = .list (items.map (roundTrip resolved)) := by
  rw [roundTrip, toDocument, Document.toValue, toDocuments_eq_map, Document.toValues_eq_map,
    List.map_map]
  rfl

theorem roundTrip_mapping (entries : List (String × Value)) :
    roundTrip resolved (.mapping entries) =
      .mapping (entries.map fun e => (e.1, roundTrip resolved e.2)) := by
  rw [roundTrip, toDocument, Document.toValue, toMembers_eq_map, Document.toEntries_eq_map,
    List.map_map]
  rfl

theorem roundTrip_int (n : Int64) : roundTrip resolved (.int n) = .int n := by
  rw [roundTrip, toDocument, Document.toValue, Checked.ofInt_toInt]

theorem toDocument_notFinite {x : Float} (h : ¬ Double.IsFinite x) :
    (Value.float x).toDocument resolved = .null := by
  rw [toDocument]
  split
  · next negative significand scale hx => exact absurd ⟨negative, significand, scale, hx⟩ h
  · rfl

theorem roundTrip_float {x : Float} (h : Double.IsFinite x) :
    roundTrip resolved (.float x) = .float x := by
  rw [roundTrip, Document.toDocument_float h, Document.toValue]

theorem roundTrip_notFinite {x : Float} (h : ¬ Double.IsFinite x) :
    roundTrip resolved (.float x) = .null := by
  rw [roundTrip, toDocument_notFinite h, Document.toValue]

/-- The way there and back makes the replacements. -/
theorem flattens_roundTrip (v : Value) : Flattens resolved v (roundTrip resolved v) := by
  induction v using Value.induction with
  | null => exact .null
  | bool b => exact .bool b
  | int n =>
    rw [roundTrip_int]
    exact .int n
  | float x =>
    by_cases hx : Double.IsFinite x
    · rw [roundTrip_float hx]
      exact .float hx
    · rw [roundTrip_notFinite hx]
      exact .notFinite hx
  | string s => exact .string s
  | list items ih =>
    rw [roundTrip_list]
    refine .list (List.length_map ..).symm ?_
    intro i v v' hv hv'
    rw [List.getElem?_map, hv] at hv'
    obtain rfl := Option.some.inj hv'
    exact ih v (List.mem_of_getElem? hv)
  | mapping entries ih =>
    rw [roundTrip_mapping]
    refine .mapping (by rw [List.map_map]; rfl) ?_
    intro i e e' he he'
    rw [List.getElem?_map, he] at he'
    obtain rfl := Option.some.inj he'
    exact ih e (List.mem_of_getElem? he)
  | error message => exact .error message
  | builtin b => exact .builtin b
  | future id => exact .future id

/-! ## What the replacements leave -/

/-- The replacements leave only one value. -/
theorem Flattens.unique {v u u' : Value} (h : Flattens resolved v u)
    (h' : Flattens resolved v u') : u = u' := by
  induction h generalizing u' with
  | null => cases h'; rfl
  | bool b => cases h'; rfl
  | int n => cases h'; rfl
  | float hx =>
    cases h' with
    | float _ => rfl
    | notFinite hx' => exact absurd hx hx'
  | notFinite hx =>
    cases h' with
    | float hx' => exact absurd hx' hx
    | notFinite _ => rfl
  | string s => cases h'; rfl
  | @list items items' hlen _ ih =>
    cases h' with
    | @list _ items'' hlen' h' =>
      congr 1
      refine List.ext_getElem (hlen.symm.trans hlen') fun i hi hi' => ?_
      have hlt : i < items.length := hlen ▸ hi
      have hv := List.getElem?_eq_getElem hlt
      exact ih i _ _ hv (List.getElem?_eq_getElem hi) (h' i _ _ hv (List.getElem?_eq_getElem hi'))
  | @mapping entries entries' hkeys _ ih =>
    cases h' with
    | @mapping _ entries'' hkeys' h' =>
      congr 1
      have hsame : entries'.map Prod.fst = entries''.map Prod.fst := hkeys.symm.trans hkeys'
      have hlen : entries.length = entries'.length := by simpa using congrArg List.length hkeys
      have hlen' : entries'.length = entries''.length := by simpa using congrArg List.length hsame
      refine List.ext_getElem hlen' fun i hi hi' => ?_
      have hlt : i < entries.length := hlen ▸ hi
      have he := List.getElem?_eq_getElem hlt
      have hsecond := ih i _ _ he (List.getElem?_eq_getElem hi)
        (h' i _ _ he (List.getElem?_eq_getElem hi'))
      have hfirst : (entries'.map Prod.fst)[i]? = (entries''.map Prod.fst)[i]? := by rw [hsame]
      simp only [List.getElem?_map, List.getElem?_eq_getElem hi, List.getElem?_eq_getElem hi',
        Option.map_some, Option.some.injEq] at hfirst
      exact Prod.ext hfirst hsecond
  | error message => cases h'; rfl
  | builtin b => cases h'; rfl
  | future id => cases h'; rfl

/-- The document of what the replacements leave is the document of the value; no future is left in
it, so it does not matter which are resolved by then. -/
theorem toDocument_roundTrip (v : Value) :
    (roundTrip resolved v).toDocument resolved' = v.toDocument resolved := by
  induction v using Value.induction with
  | int n => rw [roundTrip_int, toDocument, toDocument]
  | float x =>
    by_cases hx : Double.IsFinite x
    · rw [roundTrip_float hx, Document.toDocument_float hx, Document.toDocument_float hx]
    · rw [roundTrip_notFinite hx, toDocument_notFinite hx, toDocument]
  | list items ih =>
    rw [roundTrip_list, toDocument, toDocument, toDocuments_eq_map, toDocuments_eq_map,
      List.map_map]
    congr 1
    exact List.map_congr_left ih
  | mapping entries ih =>
    rw [roundTrip_mapping, toDocument, toDocument, toMembers_eq_map, toMembers_eq_map,
      List.map_map]
    congr 1
    refine List.map_congr_left fun e he => ?_
    exact Prod.ext rfl (ih e he)
  | _ => rfl

/-- A value that becomes a document and a value again is the value with what documents lack
replaced, and nothing else changed. Its document is then the same as before, whichever futures are
resolved in between. -/
theorem flattens_iff (resolved resolved' : FutureId → Bool) (v : Value) :
    (∀ v', Flattens resolved v v' ↔ v' = (v.toDocument resolved).toValue) ∧
      (v.toDocument resolved).toValue.toDocument resolved' = v.toDocument resolved := by
  have hflattens : Flattens resolved v (roundTrip resolved v) := flattens_roundTrip v
  refine ⟨fun v' => ⟨fun h => h.unique hflattens, ?_⟩, toDocument_roundTrip v⟩
  rintro rfl
  exact hflattens

/-- A builtin in a mapping, and an error. -/
example : (Value.list [.mapping [("f", .builtin ⟨"len", .compute .len⟩)], .error "bad"]).toDocument
      (fun _ => false) =
    .array [.object [("f", .text "<builtin len>")], .object [("error", .text "bad")]] := by
  rfl

end Value

end ScriptValues
