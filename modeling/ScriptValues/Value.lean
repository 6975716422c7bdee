import ScriptValues.Builtin
import ScriptValues.Entries
import ScriptValues.Number.Double

/-!
# Values

The values of the language and their kinds. Lists and mappings are immutable; a mapping is given by
its entries in ascending order of the keys (`Value.WellFormed`). A future is a handle to a cell that
lives outside the values.
-/

namespace ScriptValues

/-- The place of a future's cell. -/
structure FutureId where
  index : Nat
  deriving DecidableEq, Repr

inductive Value where
  | null
  | bool (b : Bool)
  | int (n : Int64)
  | float (x : Float)
  | string (s : String)
  | list (items : List Value)
  | mapping (entries : List (String × Value))
  | error (message : String)
  | builtin (b : Builtin)
  | future (id : FutureId)
  deriving Inhabited

inductive Kind where
  | integer
  | float
  | string
  | bool
  | null
  | list
  | mapping
  | error
  | builtin
  | future
  deriving DecidableEq, Repr

def Kind.name : Kind → String
  | .integer => "Integer"
  | .float => "Float"
  | .string => "String"
  | .bool => "Bool"
  | .null => "Null"
  | .list => "List"
  | .mapping => "Mapping"
  | .error => "Error"
  | .builtin => "Builtin"
  | .future => "Future"

namespace Value

def kind : Value → Kind
  | .int _ => .integer
  | .float _ => .float
  | .string _ => .string
  | .bool _ => .bool
  | .null => .null
  | .list _ => .list
  | .mapping _ => .mapping
  | .error _ => .error
  | .builtin _ => .builtin
  | .future _ => .future

/-- Whether a value counts as true: zeros, null, false and everything empty do not. -/
def isTruthy : Value → Bool
  | .null => false
  | .bool b => b
  | .int n => n != 0
  | .float x => !Double.isZero x
  | .string s => !s.isEmpty
  | .list items => !items.isEmpty
  | .mapping entries => !entries.isEmpty
  | .error _ | .builtin _ | .future _ => true

/-- The equality of the language: scalars of one kind by content, and nothing else. -/
def equals : Value → Value → Bool
  | .null, .null => true
  | .bool a, .bool b => a == b
  | .int a, .int b => a == b
  | .float a, .float b => Double.eq a b
  | .string a, .string b => a == b
  | _, _ => false

def isNull (v : Value) : Bool := v.kind = .null

def isError (v : Value) : Bool := v.kind = .error

def isNumeric (v : Value) : Bool := v.kind = .integer || v.kind = .float

def asInt? : Value → Option Int64
  | .int n => some n
  | _ => none

/-- The double of a number; an integer becomes the nearest one. -/
def asFloat? : Value → Option Float
  | .float x => some x
  | .int n => some (Double.ofInt n.toInt)
  | _ => none

def asString? : Value → Option String
  | .string s => some s
  | _ => none

def asList? : Value → Option (List Value)
  | .list items => some items
  | _ => none

def asMapping? : Value → Option (Entries Value)
  | .mapping entries => some entries
  | _ => none

def errorMessage? : Value → Option String
  | .error message => some message
  | _ => none

/-- Every mapping inside has its keys in strictly ascending order. -/
inductive WellFormed : Value → Prop where
  | null : WellFormed .null
  | bool (b : Bool) : WellFormed (.bool b)
  | int (n : Int64) : WellFormed (.int n)
  | float (x : Float) : WellFormed (.float x)
  | string (s : String) : WellFormed (.string s)
  | list {items : List Value} : (∀ v ∈ items, WellFormed v) → WellFormed (.list items)
  | mapping {entries : List (String × Value)} :
      Entries.Sorted entries → (∀ e ∈ entries, WellFormed e.2) → WellFormed (.mapping entries)
  | error (message : String) : WellFormed (.error message)
  | builtin (b : Builtin) : WellFormed (.builtin b)
  | future (id : FutureId) : WellFormed (.future id)

/-- Induction over values: of a list every element is known, of a mapping every entry's value. -/
@[elab_as_elim]
theorem induction {motive : Value → Prop} (null : motive .null) (bool : ∀ b, motive (.bool b))
    (int : ∀ n, motive (.int n)) (float : ∀ x, motive (.float x))
    (string : ∀ s, motive (.string s))
    (list : ∀ items, (∀ v ∈ items, motive v) → motive (.list items))
    (mapping : ∀ entries, (∀ e ∈ entries, motive e.2) → motive (.mapping entries))
    (error : ∀ message, motive (.error message)) (builtin : ∀ b, motive (.builtin b))
    (future : ∀ id, motive (.future id)) (v : Value) : motive v := by
  refine @Value.rec motive (fun items => ∀ v ∈ items, motive v)
    (fun entries => ∀ e ∈ entries, motive e.2) (fun e => motive e.2)
    null bool int float string list mapping error builtin future ?_ ?_ ?_ ?_ ?_ v
  · intro v hv
    cases hv
  · intro v rest hv hrest w hw
    rcases List.mem_cons.1 hw with rfl | hw
    · exact hv
    · exact hrest w hw
  · intro e he
    cases he
  · intro e rest he hrest f hf
    rcases List.mem_cons.1 hf with rfl | hf
    · exact he
    · exact hrest f hf
  · intro k v hv
    exact hv

/-! ## Handles inside a value -/

mutual

/-- The futures that a value holds, at any depth. -/
def handles : Value → List FutureId
  | .future id => [id]
  | .list items => handlesOfItems items
  | .mapping entries => handlesOfEntries entries
  | _ => []

def handlesOfItems : List Value → List FutureId
  | [] => []
  | v :: rest => handles v ++ handlesOfItems rest

def handlesOfEntries : List (String × Value) → List FutureId
  | [] => []
  | (_, v) :: rest => handles v ++ handlesOfEntries rest

end

theorem handlesOfItems_eq_flatMap (items : List Value) :
    handlesOfItems items = items.flatMap handles := by
  induction items with
  | nil => rfl
  | cons v rest ih => simp [handlesOfItems, ih]

theorem handlesOfEntries_eq_flatMap (entries : List (String × Value)) :
    handlesOfEntries entries = entries.flatMap fun e => e.2.handles := by
  induction entries with
  | nil => rfl
  | cons e rest ih =>
    obtain ⟨k, v⟩ := e
    simp [handlesOfEntries, ih]

@[simp]
theorem mem_handles_list {id : FutureId} {items : List Value} :
    id ∈ (list items).handles ↔ ∃ v ∈ items, id ∈ v.handles := by
  simp [handles, handlesOfItems_eq_flatMap]

@[simp]
theorem mem_handles_mapping {id : FutureId} {entries : List (String × Value)} :
    id ∈ (mapping entries).handles ↔ ∃ e ∈ entries, id ∈ e.2.handles := by
  simp [handles, handlesOfEntries_eq_flatMap]

@[simp]
theorem mem_handles_future {id other : FutureId} : id ∈ (future other).handles ↔ id = other := by
  simp [handles]

@[simp]
theorem handles_null : null.handles = [] := rfl

@[simp]
theorem handles_bool (b : Bool) : (bool b).handles = [] := rfl

@[simp]
theorem handles_int (n : Int64) : (int n).handles = [] := rfl

@[simp]
theorem handles_float (x : Float) : (float x).handles = [] := rfl

@[simp]
theorem handles_string (s : String) : (string s).handles = [] := rfl

@[simp]
theorem handles_error (message : String) : (error message).handles = [] := rfl

@[simp]
theorem handles_builtin (b : Builtin) : (builtin b).handles = [] := rfl

end Value

end ScriptValues
