import ScriptValues.Failure
import ScriptValues.Files.Tree
import ScriptValues.Futures

/-!
# The world of a call

Everything outside the arguments that a builtin can depend on or change: standard input, standard
output, the files, the futures, and the events that were reported. Standard input can always be read
and standard output always takes what is written; only files fail.
-/

namespace ScriptValues

/-- How much an event matters. -/
inductive Level where
  | trace
  | debug
  | warn
  deriving DecidableEq, Repr

def Level.name : Level → String
  | .trace => "trace"
  | .debug => "debug"
  | .warn => "warn"

/-- Something that was reported while a call ran, as named texts. -/
structure Event where
  level : Level
  fields : List (String × String)
  deriving DecidableEq

namespace Event

/-- An operator changed an operand. -/
def coerced (builtin : String) (operator : BinaryOperator) : Event :=
  ⟨.trace, [("message", "coerced operands"), ("builtin", builtin), ("op", operator.symbol)]⟩

def readingFile (path : String) : Event :=
  ⟨.debug, [("message", "reading file"), ("path", path)]⟩

def writingFile (path content : String) : Event :=
  ⟨.debug, [("message", "writing file"), ("path", path), ("bytes", content.utf8ByteSize.repr)]⟩

/-- A settings file is about to be read. -/
def loadingSettings (path : String) : Event :=
  ⟨.debug, [("message", "loading config"), ("path", path)]⟩

/-- A guard caught a fault. -/
def caughtFault (message : String) : Event :=
  ⟨.warn, [("message", "caught execution fault"), ("message", message)]⟩

end Event

/-- What lies outside the arguments of a call; output and events are in order. -/
structure World where
  input : List UInt8
  output : String
  files : FileTree
  futures : Futures
  events : List Event

/-- A world in which there is nothing yet. -/
def World.bare : World := ⟨[], "", ⟨.directory [], []⟩, .empty, []⟩

/-- A computation in the world. -/
abbrev Step (α : Type) := ExceptT Halt (StateM World) α

namespace Step

variable {α : Type}

/-- A computation without effects as a step. -/
def ofResult (r : Result α) : Step α := ExceptT.mk (pure r)

def report (event : Event) : Step Unit :=
  modify fun world => { world with events := world.events ++ [event] }

def fail (a : String) (cause : Cause) : Step α := throw (.failure ⟨a, cause⟩)

/-! ## Running a step in a world -/

variable {β : Type} (w : World)

@[simp]
theorem bind_run (x : Step α) (f : α → Step β) :
    (x >>= f) w = match x w with
      | (.ok a, w) => f a w
      | (.error halt, w) => (.error halt, w) := by
  simp only [bind, ExceptT.bind, ExceptT.mk, StateT.bind, ExceptT.bindCont]
  cases x w with
  | mk result next => cases result <;> rfl

@[simp]
theorem pure_run (a : α) : (pure a : Step α) w = (.ok a, w) := rfl

@[simp]
theorem ofResult_run (r : Result α) : ofResult r w = (r, w) := rfl

@[simp]
theorem report_run (event : Event) :
    report event w = (.ok (), { w with events := w.events ++ [event] }) := rfl

@[simp]
theorem fail_run (name : String) (cause : Cause) :
    (fail name cause : Step α) w = (.error (.failure ⟨name, cause⟩), w) := rfl

@[simp]
theorem throw_run (halt : Halt) : (throw halt : Step α) w = (.error halt, w) := rfl

@[simp]
theorem get_run : (get : Step World) w = (.ok w, w) := rfl

@[simp]
theorem set_run (w' : World) : (set w' : Step PUnit) w = (.ok ⟨⟩, w') := rfl

end Step

end ScriptValues
