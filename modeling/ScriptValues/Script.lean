import ScriptValues.Call

/-!
# Scripts

A script works on named variables and named promises. Its values are written as expressions, which
may refer to variables and make futures. Before every step the futures that no variable leads to are
released, so that a delivery fails exactly when nobody can read it.
-/

namespace ScriptValues

/-- How a value is written. A handle can only come out of a variable or of a future made on the
spot, so a constant holds none. -/
inductive Expression where
  | constant (v : Value) (plain : v.handles = [] := by rfl)
  | list (items : List Expression)
  | mapping (entries : List (String × Expression))
  | variable (name : String)
  | abandoned
  | delivered (content : Expression)
  | ready (content : Expression)
  deriving Inhabited

namespace Expression

variable (lookup? : String → Option Value)

mutual

/-- The value of an expression; futures in it are made from left to right. There is none when a
variable is missing. -/
def evaluate : Expression → StateT Futures Option Value
  | .constant v _ => return v
  | .list items => do return .list (← evaluateItems items)
  | .mapping entries => do return .mapping (Entries.ofList (← evaluateEntries entries))
  | .variable name => do
    match lookup? name with
    | some v => return v
    | none => failure
  | .abandoned => create .abandoned
  | .delivered content => do create (.delivered (← evaluate content))
  | .ready content => do create (.resolved (← evaluate content))
where
  create (cell : Cell) : StateT Futures Option Value := fun fs =>
    let (id, fs) := fs.create cell
    some (.future id, fs)

def evaluateItems : List Expression → StateT Futures Option (List Value)
  | [] => return []
  | e :: rest => do
    let v ← evaluate e
    return v :: (← evaluateItems rest)

def evaluateEntries : List (String × Expression) → StateT Futures Option (List (String × Value))
  | [] => return []
  | (k, e) :: rest => do
    let v ← evaluate e
    return (k, v) :: (← evaluateEntries rest)

end

end Expression

namespace Script

structure State where
  world : World
  bindings : Entries Value
  promises : Entries FutureId

inductive Action where
  | assign (name : String) (value : Expression)
  | call (builtin : Builtin) (arguments : List Expression) (result : Option String)
  | inspect (value : Expression)
  | equals (a b : Expression)
  | drop (name : String)
  | deferred (name : String)
  | ready (name : String) (value : Expression)
  | deliver (promise : String) (value : Expression)
  | abandon (promise : String)
  | await (future : String) (result : Option String)
  | tryRead (future : String)
  | isResolved (future : String)
  | awaitConcurrently (future : String) (readers : Nat) (value : Option Expression)
  | describePromise (promise : String)
  | describeFuture (future : String)

inductive Answer where
  | value (v : Value)
  | values (vs : List Value)
  | flag (b : Bool)
  | dropped (existed : Bool)
  | delivered
  | noPromise
  | undelivered (v : Value)
  | abandoned (existed : Bool)
  | tried (v : Option Value)
  | description (text : Option String)

/-- A step may stop a script: a variable is missing or holds no future, or a call halts. -/
abbrev Run (α : Type) := StateT State Option α

/-- The futures that the variables do not lead to are released. -/
def State.release (s : State) : State :=
  { s with world := { s.world with
      futures := s.world.futures.release (s.bindings.map Prod.snd) } }

def evaluateAll (es : List Expression) : Run (List Value) := fun s =>
  (Expression.evaluateItems (Entries.lookup? · s.bindings) es s.world.futures).map
    fun (vs, futures) => (vs, { s with world := { s.world with futures := futures } })

def evaluate (e : Expression) : Run Value := fun s =>
  (Expression.evaluate (Entries.lookup? · s.bindings) e s.world.futures).map
    fun (v, futures) => (v, { s with world := { s.world with futures := futures } })

/-- Stores a value in a variable, if there is one to store it in. -/
def store (name : Option String) (v : Value) : Run Unit :=
  match name with
  | none => return
  | some name => modify fun s => { s with bindings := Entries.insert name v s.bindings }

def futureIn (name : String) : Run FutureId := do
  match Entries.lookup? name (← get).bindings with
  | some (.future id) => return id
  | _ => failure

/-- The futures with some of them changed. -/
def setFutures (futures : Futures) : Run Unit :=
  modify fun s => { s with world := { s.world with futures := futures } }

def read (id : FutureId) : Run Value := do
  match (← get).world.futures.read? id with
  | some (v, futures) =>
    setFutures futures
    return v
  | none => failure

def readTimes (id : FutureId) : Nat → Run (List Value)
  | 0 => return []
  | n + 1 => do
    let v ← read id
    return v :: (← readTimes id n)

/-- Takes a promise away, which is how it is used up. -/
def takePromise (name : String) : Run (Option FutureId) := do
  let s ← get
  set { s with promises := Entries.erase name s.promises }
  return Entries.lookup? name s.promises

/-- Drops the promise of this name without delivering; answers whether there was one. -/
def abandonPromise (name : String) : Run Bool := do
  match ← takePromise name with
  | some id =>
    setFutures ((← get).world.futures.abandon id)
    return true
  | none => return false

def perform : Action → Run Answer
  | .assign name e => do
    let v ← evaluate e
    store name v
    return .value v
  | .call builtin arguments result => do
    let values ← evaluateAll arguments
    let s ← get
    match builtin.call values s.world with
    | (.ok v, world) =>
      set { s with world := world }
      store result v
      return .value v
    | (.error _, _) => failure
  | .inspect e => do return .value (← evaluate e)
  | .equals a b => do
    let a ← evaluate a
    let b ← evaluate b
    return .flag (a.equals b)
  | .drop name => do
    let s ← get
    set { s with bindings := Entries.erase name s.bindings }
    return .dropped (Entries.has name s.bindings)
  | .deferred name => do
    let _ ← abandonPromise name
    let (id, futures) := (← get).world.futures.create .pending
    setFutures futures
    modify fun s => { s with promises := Entries.insert name id s.promises }
    store name (.future id)
    return .value (.future id)
  | .ready name e => do
    let v ← evaluate (.ready e)
    store name v
    return .value v
  | .deliver promise e => do
    let v ← evaluate e
    match ← takePromise promise with
    | none => return .noPromise
    | some id =>
      match (← get).world.futures.deliver id v with
      | .ok futures =>
        setFutures futures
        return .delivered
      | .error v => return .undelivered v
  | .abandon promise => do return .abandoned (← abandonPromise promise)
  | .await future result => do
    let v ← read (← futureIn future)
    store result v
    return .value v
  | .tryRead future => do
    let id ← futureIn future
    let (v, futures) := (← get).world.futures.tryRead id
    setFutures futures
    return .tried v
  | .isResolved future => do
    let id ← futureIn future
    return .flag ((← get).world.futures.isResolved id)
  | .awaitConcurrently future readers value => do
    let id ← futureIn future
    match value with
    | some e =>
      let v ← evaluate e
      match ← takePromise future with
      | some promised =>
        match (← get).world.futures.deliver promised v with
        | .ok futures => setFutures futures
        | .error _ => pure ()
      | none => pure ()
    | none =>
      let _ ← abandonPromise future
    return .values (← readTimes id readers)
  | .describePromise promise => do
    let existing := Entries.has promise (← get).promises
    return .description (if existing then some "Promise \x7b .. \x7d" else none)
  | .describeFuture future => do
    let id ← futureIn future
    let resolved := if (← get).world.futures.isResolved id then "true" else "false"
    return .description (some ("FutureHandle \x7b resolved: " ++ resolved ++ " \x7d"))

/-- One step: release what is not held any more, then act. -/
def step (action : Action) (s : State) : Option (Answer × State) := perform action s.release

end Script

end ScriptValues
