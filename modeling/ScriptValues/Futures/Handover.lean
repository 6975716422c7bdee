import ScriptValues.Futures

/-!
# One future read by several threads

A delivered value passes through two places: a channel that holds one value, and a cache that is
filled once. Reading takes several steps, and the steps of different threads come in any order.

* `stepThread`: a reader looks in the cache; if that is empty, it claims the right to fill it, takes
  the value from the channel (or learns that none will come) and publishes it. Other readers wait
  until it has. A try tests between its looks whether the channel is empty, and then has no answer.
* `settle`: the producer delivers a value or drops the promise, once. A reader that has nothing more
  to read may leave; when all have left, the producer gets the value back.
* `run`: any order of such steps.
-/

namespace ScriptValues

namespace Handover

inductive Promise where
  | pending
  | delivered (v : Value)
  /-- The producer got the value back, since no reader was left. -/
  | refused (v : Value)
  | dropped

/-- What the producer and all readers share. -/
structure Shared where
  promise : Promise
  /-- The value that was delivered and not taken yet. -/
  channel : Option Value
  /-- The value that was published. -/
  cache : Option Value
  /-- Whether a reader has claimed to fill the cache. -/
  claimed : Bool
  /-- How often a reader took from the channel, or learnt from it that no value will come. -/
  received : Nat

/-- The two ways to read: waiting for the value, or only if it is there. -/
inductive Read where
  | await
  | tryRead
  deriving DecidableEq, Repr

/-- What the next step of a reader is. -/
inductive Stage where
  /-- The first look in the cache. -/
  | start
  /-- Testing whether the channel is empty. -/
  | test
  /-- The second look in the cache, after the channel was found full. -/
  | look
  /-- Claiming the right to fill the cache. -/
  | claim
  /-- Taking the value from the channel. -/
  | receive
  /-- Filling the cache. -/
  | publish (v : Value)

/-- A reader: its next step, the reads that it has not finished, and the answers that it got. -/
structure Thread where
  stage : Stage
  reads : List Read
  answers : List (Read × Option Value)
  /-- Whether it still holds its handle to the future. -/
  attached : Bool

structure State where
  shared : Shared
  threads : List Thread

/-- A step of the producer or of one reader. -/
inductive Move where
  | deliver (v : Value)
  | drop
  | advance (thread : Nat)
  | leave (thread : Nat)

/-- A reader that finished its current read. -/
def Thread.finish (t : Thread) (read : Read) (answer : Option Value) : Thread :=
  { t with stage := .start, reads := t.reads.tail, answers := t.answers ++ [(read, answer)] }

/-- A look in the cache: the read is finished with what is there, or goes on. -/
def lookOr (s : Shared) (t : Thread) (read : Read) (next : Stage) : Thread :=
  match s.cache with
  | some v => t.finish read (some v)
  | none => { t with stage := next }

/-- The next step of a reader in its current read; none while it has to wait. -/
def stepRead (s : Shared) (t : Thread) (read : Read) : Option (Shared × Thread) :=
  match t.stage with
  | .start => some (s, lookOr s t read (if read = .await then .claim else .test))
  | .test =>
    some (s, if s.channel.isNone then t.finish read none else { t with stage := .look })
  | .look => some (s, lookOr s t read .claim)
  | .claim =>
    match s.cache with
    | some v => some (s, t.finish read (some v))
    | none =>
      if s.claimed then none
      else some ({ s with claimed := true }, { t with stage := .receive })
  | .receive =>
    match s.channel, s.promise with
    | some v, _ =>
      some ({ s with channel := none, received := s.received + 1 }, { t with stage := .publish v })
    | none, .pending => none
    | none, _ =>
      some ({ s with received := s.received + 1 }, { t with stage := .publish abandonedValue })
  | .publish v => some ({ s with cache := some v }, t.finish read (some v))

/-- The next step of a reader; none without a read to do. -/
def stepThread (s : Shared) (t : Thread) : Option (Shared × Thread) :=
  match t.reads with
  | [] => none
  | read :: _ => stepRead s t read

/-- The value that lies in the channel until a reader takes it. -/
def Promise.content? : Promise → Option Value
  | .delivered v => some v
  | _ => none

/-- The producer's one step: what becomes of the promise, and what then lies in the channel. -/
def settle (s : Shared) (outcome : Promise) : Option Shared :=
  match s.promise with
  | .pending => some { s with promise := outcome, channel := outcome.content? }
  | _ => none

/-- Whether any reader still holds a handle. -/
def State.attached (state : State) : Bool := state.threads.any (·.attached)

/-- What becomes of the promise when a value is delivered now. -/
def State.outcome (state : State) (v : Value) : Promise :=
  if state.attached then .delivered v else .refused v

/-- A reader drops its handle, once it has nothing more to read. -/
def Thread.leave (t : Thread) : Option Thread :=
  if t.reads = [] ∧ t.attached then some { t with attached := false } else none

def step (move : Move) (state : State) : Option State :=
  match move with
  | .deliver v => (settle state.shared (state.outcome v)).map ({ state with shared := · })
  | .drop => (settle state.shared .dropped).map ({ state with shared := · })
  | .advance i => do
    let t ← state.threads[i]?
    let (s, t) ← stepThread state.shared t
    return ⟨s, state.threads.set i t⟩
  | .leave i => do
    let t ← state.threads[i]?
    let t ← t.leave
    return { state with threads := state.threads.set i t }

def run : List Move → State → Option State
  | [], state => some state
  | move :: rest, state => (step move state).bind (run rest)

/-- The start: a pending promise, and one reader for every list of reads. -/
def State.ofReads (reads : List (List Read)) : State :=
  ⟨⟨.pending, none, none, false, 0⟩, reads.map fun rs => ⟨.start, rs, [], true⟩⟩

end Handover

end ScriptValues
