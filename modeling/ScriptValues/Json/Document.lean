import ScriptValues.Entries

/-!
# JSON documents

A number of a document is an integer or a double. The members of an object stand in ascending order
of their names.
-/

namespace ScriptValues

/-- A JSON document. -/
inductive Document where
  | null
  | bool (b : Bool)
  | integer (n : Int)
  | double (x : Float)
  | text (s : String)
  | array (items : List Document)
  | object (members : List (String × Document))
  deriving Inhabited

end ScriptValues
