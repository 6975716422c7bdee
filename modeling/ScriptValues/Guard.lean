import ScriptValues.Call

/-!
# Guards

A guard runs a body of the host. Under the policy `propagate` it does nothing else. Otherwise it
turns a fault of the body into an outcome with an error value and a diagnostic. Where a fault arises
while a guard is active, its site is recorded in one slot; the guard that catches a fault takes what
is in the slot.
-/

namespace ScriptValues

/-- What a guard does about a fault. -/
inductive FaultPolicy where
  | catchSilently
  | log
  | propagate
  deriving DecidableEq, Repr

namespace FaultPolicy

def name : FaultPolicy → String
  | .catchSilently => "catch"
  | .log => "log"
  | .propagate => "propagate"

def ofName? (name : String) : Option FaultPolicy :=
  [catchSilently, log, propagate].find? (·.name = name)

def standard : FaultPolicy := .log

theorem ofName_name (policy : FaultPolicy) : ofName? policy.name = some policy := by
  cases policy <;> decide

end FaultPolicy

/-- A policy, and whether the site of a fault is recorded with a backtrace. -/
structure Guard where
  policy : FaultPolicy
  backtrace : Bool
  deriving DecidableEq, Repr

/-- Where a fault arose. -/
structure FaultSite where
  location : String
  backtrace : Option String
  deriving DecidableEq

/-- What a guarded run came to. -/
inductive Outcome where
  | completed (value : Value)
  | faulted (error : Value) (diagnostic : String)

namespace Outcome

def isCompleted : Outcome → Bool
  | .completed _ => true
  | .faulted .. => false

def value? : Outcome → Option Value
  | .completed v => some v
  | .faulted .. => none

def error? : Outcome → Option Value
  | .completed _ => none
  | .faulted e _ => some e

/-- The diagnostic of a faulted body; empty for a completed one. -/
def diagnostic : Outcome → String
  | .completed _ => ""
  | .faulted _ d => d

/-- The value, or the error in its place. -/
def toValue : Outcome → Value
  | .completed v => v
  | .faulted e _ => e

end Outcome

def Payload.message : Payload → String
  | .text s => s
  | .other => "unknown panic payload"

/-- The diagnostic of a fault: the message, after the location if one was recorded, and before the
backtrace if one was recorded. -/
def faultDiagnostic (message : String) : Option FaultSite → String
  | none => "panicked: " ++ message
  | some site =>
    "panicked at " ++ site.location ++ ": " ++ message ++
      (match site.backtrace with
        | some frames => "\nbacktrace:\n" ++ frames
        | none => "")

def faultError (message : String) : Value := .error ("execution fault: " ++ message)

inductive LogEntry where
  | policy (policy : FaultPolicy)
  | outcome (outcome : Outcome)

/-- The state of a thread of the host. -/
structure Host where
  world : World
  /-- Whether a guard is active, and then whether it asked for backtraces. -/
  active : Option Bool
  /-- The site of the last recorded fault. -/
  lastFault : Option FaultSite
  /-- What the host noted about its guards. -/
  log : List LogEntry

/-- A body of the host: its value or what stopped it. -/
abbrev Body (α : Type) := Host → Except Halt α × Host

namespace Host

/-- The place of the code, as far as diagnostics show it. -/
def location : String := "<location>"

/-- The frames of the stack, as far as diagnostics show them. -/
def frames : String := "<frames>"

/-- The hook that runs where a fault arises: it records the site while a guard is active. -/
def noteFault (h : Host) : Host :=
  match h.active with
  | none => h
  | some backtrace =>
    { h with lastFault := some ⟨location, if backtrace then some frames else none⟩ }

/-- A host with no guard active and nothing recorded. -/
def ofWorld (world : World) : Host := ⟨world, none, none, []⟩

def note (entry : LogEntry) (h : Host) : Host := { h with log := h.log ++ [entry] }

def report (event : Event) (h : Host) : Host :=
  { h with world := { h.world with events := h.world.events ++ [event] } }

end Host

namespace Guard

/-- The outcome of a caught fault; the slot is left empty. -/
def caught (g : Guard) (payload : Payload) (h : Host) : Outcome × Host :=
  let message := payload.message
  let outcome := Outcome.faulted (faultError message) (faultDiagnostic message h.lastFault)
  let h := { h with lastFault := none }
  (outcome, if g.policy = .log then h.report (.caughtFault message) else h)

def run (g : Guard) (body : Body Value) : Body Outcome := fun h =>
  if g.policy = .propagate then
    match body h with
    | (.ok v, h) => (.ok (.completed v), h)
    | (.error halt, h) => (.error halt, h)
  else
    let (result, after) := body { h with active := some g.backtrace }
    let after := { after with active := h.active }
    match result with
    | .ok v => (.ok (.completed v), after)
    | .error (.fault payload) =>
      let (outcome, after) := g.caught payload after
      (.ok outcome, after)
    | .error halt => (.error halt, after)

end Guard

/-- A call of a builtin as a body: a fault inside it goes through the hook. -/
def callBody (b : Builtin) (values : List Value) : Body Value := fun h =>
  let (result, world) := b.call values h.world
  let h := { h with world := world }
  match result with
  | .error (.fault payload) => (.error (.fault payload), h.noteFault)
  | result => (result, h)

end ScriptValues
