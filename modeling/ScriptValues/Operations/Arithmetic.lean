import ScriptValues.Arguments
import ScriptValues.Coercion
import ScriptValues.Number.Checked

/-!
# Arithmetic

Binary operators coerce their operands first. Two integers are computed exactly or overflow; two
doubles are computed in floating point; `+` joins two texts. Any other pair is blamed on the first
operand that the operator cannot accept.
-/

namespace ScriptValues

namespace Arithmetic

/-- The kinds of operands that an operator accepts. -/
def accepted : BinaryOperator → List Kind
  | .add => [.integer, .float, .string]
  | _ => [.integer, .float]

/-- The type failure of the first operand that is not accepted. -/
def blame (a : Arguments) (operator : BinaryOperator) (left : Value) : Result Value :=
  if left.kind ∈ accepted operator then a.mismatch 1 (.kinds (accepted operator))
  else a.mismatch 0 (.kinds (accepted operator))

/-- An exact result, or overflow. -/
def orOverflow (a : Arguments) : Option Int64 → Result Value
  | some n => .ok (.int n)
  | none => a.fail .overflow

def onIntegers (a : Arguments) (operator : BinaryOperator) (x y : Int64) : Result Value :=
  match operator with
  | .add => orOverflow a (Checked.add? x y)
  | .subtract => orOverflow a (Checked.sub? x y)
  | .multiply => orOverflow a (Checked.mul? x y)
  | .divide => if y = 0 then a.fail .divisionByZero else orOverflow a (Checked.div? x y)
  | .remainder => if y = 0 then a.fail .moduloByZero else orOverflow a (Checked.rem? x y)
  | .power =>
    if y < 0 then
      a.fail (.domain ("negative exponent " ++ integerText y ++ " requires a Float operand"))
    else orOverflow a (Checked.pow? x y.toInt.toNat)

def onDoubles (a : Arguments) (operator : BinaryOperator) (x y : Float) : Result Value :=
  match operator with
  | .add => .ok (.float (x + y))
  | .subtract => .ok (.float (x - y))
  | .multiply => .ok (.float (x * y))
  | .divide => if Double.isZero y then a.fail .divisionByZero else .ok (.float (x / y))
  | .remainder =>
    if Double.isZero y then a.fail .moduloByZero else .ok (.float (Double.remainder x y))
  | .power => .ok (.float (Float.pow x y))

/-- The coerced operands of a call with two arguments. -/
def operands (a : Arguments) (operator : BinaryOperator) : Result Coerced := do
  let left ← a.value 0
  let right ← a.value 1
  return coerce left right operator

/-- A binary operator on coerced operands. -/
def apply (a : Arguments) (operator : BinaryOperator) (c : Coerced) : Result Value :=
  match c.left, c.right with
  | .int x, .int y => onIntegers a operator x y
  | .float x, .float y => onDoubles a operator x y
  | .string x, .string y =>
    if operator = .add then .ok (.string (x ++ y)) else blame a operator c.left
  | left, _ => blame a operator left

def sqrt (a : Arguments) : Result Value := do
  let v ← a.number 0
  let x := v.asFloat?.getD Double.notANumber
  if Double.lt x (Double.ofInt 0) then
    a.fail (.domain
      ("cannot take the square root of negative number " ++ v.scalarText?.getD ""))
  else return .float x.sqrt

def abs (a : Arguments) : Result Value := do
  match ← a.number 0 with
  | .int n => orOverflow a (Checked.abs? n)
  | v => return .float (Double.abs (v.asFloat?.getD Double.notANumber))

/-- A double as the integer that a rounding mode makes of it. -/
def doubleToInt (a : Arguments) (mode : Double.Rounding) (x : Float) : Result Value :=
  orOverflow a ((Double.integral? mode x).bind Checked.ofInt?)

/-- A number as an integer; integers pass through. -/
def toIntegral (a : Arguments) (mode : Double.Rounding) : Result Value := do
  match ← a.number 0 with
  | .int n => return .int n
  | v => doubleToInt a mode (v.asFloat?.getD Double.notANumber)

/-- Whether the first number is at most the second; two integers are compared exactly. -/
def atMost (left right : Value) : Bool :=
  match left, right with
  | .int x, .int y => x ≤ y
  | _, _ =>
    match left.asFloat?, right.asFloat? with
    | some x, some y => Double.le x y
    | _, _ => false

/-- The operand that `chooseLeft` picks, told whether the left one is at most the right one. -/
def pick (a : Arguments) (chooseLeft : Bool → Bool) : Result Value := do
  let left ← a.number 0
  let right ← a.number 1
  let c := coerce left right .subtract
  return if chooseLeft (atMost c.left c.right) then c.left else c.right

def min (a : Arguments) : Result Value := pick a id

def max (a : Arguments) : Result Value := pick a not

end Arithmetic

end ScriptValues
