import ScriptValues.Number.Reading
import ScriptValues.Operations.Arithmetic
import ScriptValues.Text.Blank

/-!
# Conversions and questions about a value

Conversion between scalars, and the questions that every value answers.
-/

namespace ScriptValues

namespace Conversions

/-- The kinds that convert to a number. -/
def numberSources : List Kind := [.integer, .float, .bool, .string]

def ofBool (b : Bool) : Int64 := if b then 1 else 0

/-- The number that a text without its outer blanks denotes; an integer if it can be one. -/
def readNumber? (s : String) : Option Value :=
  let text := stripBlanks s.toList
  match readInteger? text with
  | some n => some (.int n)
  | none => (readDouble? text).map .float

/-- The rendering of the argument. -/
def toString (resolved : FutureId → Bool) (a : Arguments) : Result Value := do
  return .string ((← a.value 0).inspect resolved)

def toNumber (a : Arguments) : Result Value := do
  match ← a.value 0 with
  | .int n => return .int n
  | .float x => return .float x
  | .bool b => return .int (ofBool b)
  | .string s =>
    match readNumber? s with
    | some v => return v
    | none => a.fail (.parse s "a number")
  | _ => a.mismatch 0 (.kinds numberSources)

/-- The argument as an integer, truncated toward zero. -/
def toInt (a : Arguments) : Result Value := do
  match ← a.value 0 with
  | .int n => return .int n
  | .float x => Arithmetic.doubleToInt a .towardZero x
  | .bool b => return .int (ofBool b)
  | .string s =>
    let text := stripBlanks s.toList
    match readInteger? text with
    | some n => return .int n
    | none =>
      match readDouble? text with
      | some x => Arithmetic.doubleToInt a .towardZero x
      | none => a.fail (.parse s "an integer")
  | _ => a.mismatch 0 (.kinds numberSources)

/-- Whether the argument counts as true. -/
def toBool (a : Arguments) : Result Value := do
  return .bool (← a.value 0).isTruthy

def typeOf (a : Arguments) : Result Value := do
  return .string (← a.value 0).kind.name

def isNull (a : Arguments) : Result Value := do
  return .bool (← a.value 0).isNull

/-- Whether the argument is null or has no elements. -/
def isEmpty (a : Arguments) : Result Value := do
  match ← a.value 0 with
  | .null => return .bool true
  | .string s => return .bool s.isEmpty
  | .list items => return .bool items.isEmpty
  | .mapping entries => return .bool entries.isEmpty
  | _ => a.mismatch 0 (.kinds [.string, .list, .mapping, .null])

/-- Nothing can run spawned work here. -/
def spawn (a : Arguments) : Result Value := do
  match ← a.value 0 with
  | .builtin _ => a.fail (.unsupported "no execution context is available to run spawned work")
  | _ => a.mismatch 0 (.kinds [.builtin])

end Conversions

end ScriptValues
