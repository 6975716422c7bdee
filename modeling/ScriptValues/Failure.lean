import ScriptValues.Value

/-!
# Failures

A failure names the builtin that was called and its cause; one function words every cause. A call
that gives no value halts: with a failure, with a fault of the host (an operation was used outside
its range), or because it waits for a future that nobody has resolved yet.
-/

namespace ScriptValues

inductive Expectation where
  | kinds (accepted : List Kind)
  | described (text : String)
  deriving DecidableEq, Repr

/-- The wording of an expectation: kinds are listed with "or" before the last. -/
def Expectation.text : Expectation → String
  | .kinds accepted =>
    match (accepted.map Kind.name).reverse with
    | [] => ""
    | [only] => only
    | last :: others => ", ".intercalate others.reverse ++ " or " ++ last
  | .described text => text

/-- Why a builtin failed. -/
inductive Cause where
  | arity (expected : Arity) (got : Nat)
  | type (position : Nat) (expected : Expectation) (actual : Kind)
  | bounds (start stop : Int64) (length : Nat)
  | index (position : Int64) (length : Nat)
  | divisionByZero
  | moduloByZero
  | parse (input target : String)
  | overflow
  | domain (message : String)
  | emptyList
  | io (message : String)
  | unsupported (message : String)
  deriving DecidableEq

def Cause.text : Cause → String
  | .arity expected got => "expects " ++ expected.text ++ ", got " ++ got.repr
  | .type position expected actual =>
    "argument " ++ position.repr ++ " must be " ++ expected.text ++ ", got " ++ actual.name
  | .bounds start stop length =>
    "range [" ++ start.toInt.repr ++ ", " ++ stop.toInt.repr ++ ") out of bounds for length "
      ++ length.repr
  | .index position length =>
    "index " ++ position.toInt.repr ++ " out of bounds for length " ++ length.repr
  | .divisionByZero => "division by zero"
  | .moduloByZero => "modulo by zero"
  | .parse input target => "cannot parse " ++ quoted input ++ " as " ++ target
  | .overflow => "integer overflow"
  | .emptyList => "list is empty"
  | .domain message | .io message | .unsupported message => message

structure Failure where
  builtin : String
  cause : Cause
  deriving DecidableEq

/-- The message of a failure: the builtin, then the cause. -/
def Failure.message (f : Failure) : String := f.builtin ++ ": " ++ f.cause.text

def Failure.toValue (f : Failure) : Value := .error f.message

/-- What an unwinding carries. -/
inductive Payload where
  | text (message : String)
  | other
  deriving DecidableEq, Repr

/-- Why a computation gives no value. -/
inductive Halt where
  | failure (failure : Failure)
  | fault (payload : Payload)
  | waiting (future : FutureId)
  deriving DecidableEq

/-- The result of a computation without effects. -/
abbrev Result (α : Type) := Except Halt α

namespace Result

variable {α β : Type}

/-- A sequence answers exactly when both parts do. -/
theorem bind_eq_ok {x : Result α} {f : α → Result β} {b : β} :
    x >>= f = .ok b ↔ ∃ a, x = .ok a ∧ f a = .ok b := by
  cases x <;> simp [bind, Except.bind]

theorem ok_bind (a : α) (f : α → Result β) : (Except.ok a : Result α) >>= f = f a := rfl

theorem error_bind (halt : Halt) (f : α → Result β) :
    (Except.error halt : Result α) >>= f = .error halt := rfl

theorem pure_eq_ok {a b : α} : (pure a : Result α) = .ok b ↔ a = b := by
  simp [pure, Except.pure]

end Result

end ScriptValues
