import ScriptValues.Json.Document
import ScriptValues.Number.Checked
import ScriptValues.Value.Inspect

/-!
# Values and JSON documents

A document becomes a value kind by kind; an integer that does not fit becomes a double. The other
way, a double that is not finite becomes null, an error becomes an object with its message, and a
builtin or a future becomes its rendering.
-/

namespace ScriptValues

namespace Document

mutual

/-- The value of a document. -/
def toValue : Document → Value
  | .null => .null
  | .bool b => .bool b
  | .integer n =>
    match Checked.ofInt? n with
    | some i => .int i
    | none => .float (Double.ofInt n)
  | .double x => .float x
  | .text s => .string s
  | .array items => .list (toValues items)
  | .object members => .mapping (toEntries members)

def toValues : List Document → List Value
  | [] => []
  | item :: rest => toValue item :: toValues rest

def toEntries : List (String × Document) → List (String × Value)
  | [] => []
  | (name, item) :: rest => (name, toValue item) :: toEntries rest

end

end Document

namespace Value

variable (resolved : FutureId → Bool)

mutual

/-- The document of a value. -/
def toDocument : Value → Document
  | .null => .null
  | .bool b => .bool b
  | .int n => .integer n.toInt
  | .float x =>
    match Double.decode x with
    | .finite .. => .double x
    | _ => .null
  | .string s => .text s
  | .list items => .array (toDocuments items)
  | .mapping entries => .object (toMembers entries)
  | .error message => .object [("error", .text message)]
  | .builtin b => .text (inspect resolved (.builtin b))
  | .future id => .text (inspect resolved (.future id))

def toDocuments : List Value → List Document
  | [] => []
  | v :: rest => toDocument v :: toDocuments rest

def toMembers : List (String × Value) → List (String × Document)
  | [] => []
  | (k, v) :: rest => (k, toDocument v) :: toMembers rest

end

end Value

end ScriptValues
