import ScriptValues.Console
import ScriptValues.Operations.Computation

/-!
# Calling builtins

A call checks the number of arguments before anything else. Computations leave the world as it is;
arithmetic only reports; the other operations change one part of the world each.
-/

namespace ScriptValues

namespace Operation

/-- Arithmetic reports a coercion before it computes. -/
def arithmeticStep (operator : BinaryOperator) (a : Arguments) : Step Value := do
  let c ← Step.ofResult (Arithmetic.operands a operator)
  if c.changed then Step.report (.coerced a.name operator)
  Step.ofResult (Arithmetic.apply a operator c)

/-- Prints the renderings with spaces between them on a line. The output of a world takes whatever is
written to it, so the failure `cannot write stdout` of a process with a closed output has no place
here. -/
def printStep (a : Arguments) : Step Value := do
  let world ← get
  let line := " ".intercalate (a.values.map (Value.inspect world.futures.isResolved))
  set { world with output := world.output ++ line ++ "\n" }
  return .null

/-- Takes one line of standard input; null at its end. -/
def readLineStep (a : Arguments) : Step Value := do
  let world ← get
  let (line, rest) := Console.takeLine world.input
  set { world with input := rest }
  if line.isEmpty then return .null
  else
    match utf8Text? line with
    | some s => return .string (Console.lineText s)
    | none => Step.fail a.name (.io ("cannot read stdin: " ++ FileError.notUtf8.message))

/-- The text of a file. -/
def readFileStep (a : Arguments) : Step Value := do
  let path ← Step.ofResult (a.string 0)
  Step.report (.readingFile path)
  match (← get).files.readText path with
  | .ok s => return .string s
  | .error e => Step.fail a.name (.io ("cannot read '" ++ path ++ "': " ++ e.message))

/-- Makes or replaces a file. -/
def writeFileStep (a : Arguments) : Step Value := do
  let path ← Step.ofResult (a.string 0)
  let content ← Step.ofResult (a.string 1)
  Step.report (.writingFile path content)
  let world ← get
  match world.files.writeText path content with
  | .ok files =>
    set { world with files := files }
    return .null
  | .error e => Step.fail a.name (.io ("cannot write '" ++ path ++ "': " ++ e.message))

/-- Reads a future, and waits while its promise is open. -/
def awaitStep (a : Arguments) : Step Value := do
  let id ← Step.ofResult (a.future 0)
  let world ← get
  match world.futures.read? id with
  | some (v, futures) =>
    set { world with futures := futures }
    return v
  | none => throw (.waiting id)

/-- What an operation does with its arguments. -/
def run : Operation → Arguments → Step Value
  | .compute computation, a => do
    let world ← get
    Step.ofResult (computation.run world.futures.isResolved a)
  | .arithmetic operator, a => arithmeticStep operator a
  | .print, a => printStep a
  | .readLine, a => readLineStep a
  | .readFile, a => readFileStep a
  | .writeFile, a => writeFileStep a
  | .await, a => awaitStep a

end Operation

/-- Calls something of this name and arity, if the number of arguments is right. -/
def callChecked {m : Type → Type} [Monad m] [MonadExcept Halt m] (name : String) (arity : Arity)
    (body : Arguments → m Value) (values : List Value) : m Value :=
  if arity.accepts values.length then body ⟨name, values⟩
  else throw (.failure ⟨name, .arity arity values.length⟩)

namespace Builtin

/-- Calls a builtin; a failure keeps its structure. -/
def tryCall (b : Builtin) (values : List Value) : Step Value :=
  callChecked b.name b.arity b.operation.run values

end Builtin

/-- Turns a failure into the error value with its message. -/
def failureToValue (r : Except Halt Value) : Except Halt Value :=
  match r with
  | .error (.failure f) => .ok f.toValue
  | r => r

namespace Builtin

/-- Calls a builtin; a failure becomes an error value. -/
def call (b : Builtin) (values : List Value) : Step Value :=
  ExceptT.mk do return failureToValue (← (b.tryCall values).run)

end Builtin

/-! ## A builtin of the host -/

namespace HostEcho

def name : String := "echo"

/-- Answers the list of the arguments; an error among them is a type failure. -/
def body (a : Arguments) : Result Value :=
  match a.values.findIdx? Value.isError with
  | some i => a.mismatch i (.described "anything but Error")
  | none => .ok (.list a.values)

/-- Calls it under an arity of the caller's choice. -/
def call (arity : Arity) (values : List Value) : Result Value :=
  failureToValue (callChecked name arity body values)

end HostEcho

end ScriptValues
