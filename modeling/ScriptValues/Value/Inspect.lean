import ScriptValues.Number.Rendering
import ScriptValues.Value

/-!
# The rendering of a value

`Value.inspect` never fails. It serves printing, conversion to text, joining and the order of
`sort`. Whether a future is resolved is the only thing outside the value that it depends on.
-/

namespace ScriptValues

namespace Value

/-- The rendering of a number, a Bool or null; `none` for every other value. -/
def scalarText? : Value → Option String
  | .int n => some (integerText n)
  | .float x => some (Double.text x)
  | .bool b => some (if b then "true" else "false")
  | .null => some "null"
  | _ => none

variable (resolved : FutureId → Bool)

mutual

/-- The rendering of a value. -/
def inspect : Value → String
  | .null => "null"
  | .bool b => if b then "true" else "false"
  | .int n => integerText n
  | .float x => Double.text x
  | .string s => s
  | .list items => "[" ++ ", ".intercalate (inspectItems items) ++ "]"
  | .mapping entries => "\x7b" ++ ", ".intercalate (inspectEntries entries) ++ "\x7d"
  | .error message => "ERROR: " ++ message
  | .builtin b => "<builtin " ++ b.name ++ ">"
  | .future id => if resolved id then "<future resolved>" else "<future pending>"

def inspectItems : List Value → List String
  | [] => []
  | v :: rest => inspect v :: inspectItems rest

def inspectEntries : List (String × Value) → List String
  | [] => []
  | (k, v) :: rest => (k ++ ": " ++ inspect v) :: inspectEntries rest

end

theorem inspect_of_scalarText? {v : Value} {s : String} (h : v.scalarText? = some s) :
    v.inspect resolved = s := by
  cases v <;> simp_all [scalarText?, inspect]

theorem inspectItems_eq_map (items : List Value) :
    inspectItems resolved items = items.map (inspect resolved) := by
  induction items with
  | nil => rfl
  | cons v rest ih => simp [inspectItems, ih]

theorem inspectEntries_eq_map (entries : List (String × Value)) :
    inspectEntries resolved entries
      = entries.map fun e => e.1 ++ ": " ++ inspect resolved e.2 := by
  induction entries with
  | nil => rfl
  | cons e rest ih => obtain ⟨k, v⟩ := e; simp [inspectEntries, ih]

end Value

end ScriptValues
