import ScriptValues.Guard

/-!
# Programs of the host

What a host may run under guards: values, calls, faults that it raises itself, its own catching, and
guards inside guards. A log keeps what every guard that returned came to.
-/

namespace ScriptValues

inductive HostProgram where
  | value (v : Value)
  | call (builtin : Builtin) (arguments : List Value)
  /-- Raises a fault, which the hook sees. -/
  | raise (payload : Payload)
  /-- Goes on unwinding with a payload; the hook does not see it. -/
  | resume (payload : Payload)
  /-- Catches a fault without a guard. -/
  | catchFault (body : HostProgram)
  | sequence (bodies : List HostProgram)
  | guarded (guard : Guard) (body : HostProgram)
  /-- Logs the policy of a guard, then runs it. -/
  | announced (guard : Guard) (body : HostProgram)
  deriving Inhabited

namespace HostProgram

/-- What the host itself shows of a payload. -/
def payloadText : Payload → String
  | .text s => s
  | .other => "<other payload>"

/-- Runs a body under a guard, and notes the outcome if the guard returns. -/
def runGuarded (g : Guard) (body : Body Value) : Body Value := fun h =>
  match g.run body h with
  | (.ok outcome, h) => (.ok outcome.toValue, h.note (.outcome outcome))
  | (.error halt, h) => (.error halt, h)

mutual

def run : HostProgram → Body Value
  | .value v, h => (.ok v, h)
  | .call builtin arguments, h => callBody builtin arguments h
  | .raise payload, h => (.error (.fault payload), h.noteFault)
  | .resume payload, h => (.error (.fault payload), h)
  | .catchFault body, h =>
    match run body h with
    | (.error (.fault payload), h) => (.ok (.string ("caught " ++ payloadText payload)), h)
    | result => result
  | .sequence bodies, h => runAll bodies .null h
  | .guarded guard body, h => runGuarded guard (run body) h
  | .announced guard body, h => runGuarded guard (run body) (h.note (.policy guard.policy))

/-- Runs programs in order; the value of the last one counts. -/
def runAll : List HostProgram → Value → Body Value
  | [], last, h => (.ok last, h)
  | body :: rest, _, h =>
    match run body h with
    | (.ok v, h) => runAll rest v h
    | (.error halt, h) => (.error halt, h)

end

end HostProgram

end ScriptValues
