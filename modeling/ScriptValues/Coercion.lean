import ScriptValues.Value.Inspect

/-!
# Coercion of operands

An integer next to a double becomes a double. For `+` alone, a number, a Bool or null next to a
text becomes its rendering. Every other pair passes through untouched.
-/

namespace ScriptValues

/-- The operands that an operator uses, and whether one of them was changed. -/
structure Coerced where
  left : Value
  right : Value
  changed : Bool

def coerce (left right : Value) (operator : BinaryOperator) : Coerced :=
  match left, right with
  | .int a, .float b => ⟨.float (Double.ofInt a.toInt), .float b, true⟩
  | .float a, .int b => ⟨.float a, .float (Double.ofInt b.toInt), true⟩
  | .string a, other =>
    match other.scalarText? with
    | some text => if operator = .add then ⟨.string a, .string text, true⟩ else ⟨left, right, false⟩
    | none => ⟨left, right, false⟩
  | other, .string b =>
    match other.scalarText? with
    | some text => if operator = .add then ⟨.string text, .string b, true⟩ else ⟨left, right, false⟩
    | none => ⟨left, right, false⟩
  | _, _ => ⟨left, right, false⟩

end ScriptValues
