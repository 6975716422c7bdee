import ScriptValues.Json.Bridge
import ScriptValues.Json.Reader
import ScriptValues.Settings.Discovery

/-!
# The command line

`list` shows every builtin with its arity; `call NAME ARGS…` calls one. The option `--config PATH`
may stand before or after the command; the one nearer to the end of the line counts, but it must not
stand twice on one side. Once `call` has its first argument, everything that follows is one.
-/

namespace ScriptValues

namespace CommandLine

/-- What a command line asks for. -/
inductive Command where
  | list
  | call (name : String) (arguments : List String)
  deriving DecidableEq, Repr

/-- What a command line comes to. -/
inductive Request where
  | run (settings : Option String) (command : Command)
  | help
  | version
  | misuse
  deriving DecidableEq, Repr

/-! ## Options -/

/-- How a token begins. -/
inductive Token where
  /-- Two dashes alone: what follows are no options. -/
  | separator
  /-- A name after two dashes, with what stands behind an equals sign. -/
  | long (name : String) (value : Option String)
  /-- Letters after one dash. -/
  | short (letters : List Char)
  | plain (text : String)
  deriving DecidableEq, Repr

def Token.ofText (s : String) : Token :=
  match s.toList with
  | ['-', '-'] => .separator
  | '-' :: '-' :: cs =>
    let name := cs.takeWhile (· ≠ '=')
    .long (.ofList name)
      (match cs.drop name.length with
        | _ :: value => some (.ofList value)
        | [] => none)
  | '-' :: c :: cs => .short (c :: cs)
  | _ => .plain s

/-- Whether a token can be the value of an option before it. -/
def isOptionValue (s : String) : Bool :=
  match Token.ofText s with
  | .plain text => text ≠ ""
  | _ => false

/-- What the next tokens are, where options may stand. -/
inductive Item where
  | settings (path : String)
  | separator
  | help
  | version
  /-- A token that is no option known here. -/
  | unknown (text : String)
  | plain (text : String)
  | misuse

/-- What short letters are: the first known one counts if all are known. -/
def shortItem (letters : List Char) (versionKnown : Bool) (text : String) : Item :=
  let known (c : Char) : Bool := c = 'h' || (versionKnown && c = 'V')
  match letters with
  | [] => .unknown text
  | c :: _ =>
    if letters.all known then (if c = 'h' then .help else .version)
    else .unknown text

/-- What was taken from the front of a list of tokens, and the tokens after it. -/
structure Taken (tokens : List String) where
  item : Item
  rest : List String
  shorter : rest.length < tokens.length

def Taken.one (item : Item) (token : String) (rest : List String) : Taken (token :: rest) :=
  ⟨item, rest, Nat.lt_succ_self _⟩

/-- The option with the settings path, whose value stands behind an equals sign or comes next. -/
def Taken.settings (token : String) :
    Option String → (rest : List String) → Taken (token :: rest)
  | some path, rest => .one (if path = "" then .misuse else .settings path) token rest
  | none, next :: after =>
    ⟨if isOptionValue next then .settings next else .misuse, after,
      Nat.lt_succ_of_lt (Nat.lt_succ_self _)⟩
  | none, [] => .one .misuse token []

/-- The first item of a list of tokens. -/
def nextItem (versionKnown : Bool) : (tokens : List String) → Option (Taken tokens)
  | [] => none
  | s :: rest =>
    match Token.ofText s with
    | .separator => some (.one .separator s rest)
    | .long "config" value => some (.settings s value rest)
    | .long "help" value => some (.one (if value.isNone then .help else .misuse) s rest)
    | .long "version" value =>
      let item : Item :=
        if versionKnown then (if value.isNone then .version else .misuse) else .unknown s
      some (.one item s rest)
    | .long .. => some (.one (.unknown s) s rest)
    | .short letters => some (.one (shortItem letters versionKnown s) s rest)
    | .plain text => some (.one (.plain text) s rest)

/-- A settings path that is given at most once on one side of the command. -/
def once (earlier : Option String) (path : String) : Option (Option String) :=
  if earlier.isSome then none else some (some path)

/-! ## Commands -/

/-- After `call NAME`: options may stand until the first argument. -/
def readArguments (name : String) (outer own : Option String) (tokens : List String) : Request :=
  let finish (own : Option String) (arguments : List String) : Request :=
    .run (own.or outer) (.call name arguments)
  match nextItem false tokens with
  | none => finish own []
  | some ⟨item, rest, _⟩ =>
    match item with
    | .settings path =>
      match once own path with
      | some own => readArguments name outer own rest
      | none => .misuse
    | .separator => finish own rest
    | .help => .help
    | .misuse | .version => .misuse
    | .unknown text | .plain text => finish own (text :: rest)
termination_by tokens.length
decreasing_by assumption

/-- After `call`: options, then the name. -/
def readName (outer own : Option String) (tokens : List String) : Request :=
  match nextItem false tokens with
  | none => .misuse
  | some ⟨item, rest, _⟩ =>
    match item with
    | .settings path =>
      match once own path with
      | some own => readName outer own rest
      | none => .misuse
    | .separator =>
      match rest with
      | [] => .misuse
      | name :: arguments => .run (own.or outer) (.call name arguments)
    | .help => .help
    | .misuse | .version | .unknown _ => .misuse
    | .plain name => readArguments name outer own rest
termination_by tokens.length
decreasing_by assumption

/-- After `list`: options and nothing else. -/
def readList (outer own : Option String) (tokens : List String) : Request :=
  match nextItem false tokens with
  | none => .run (own.or outer) .list
  | some ⟨item, rest, _⟩ =>
    match item with
    | .settings path =>
      match once own path with
      | some own => readList outer own rest
      | none => .misuse
    | .separator => if rest.isEmpty then .run (own.or outer) .list else .misuse
    | .help => .help
    | .misuse | .version | .unknown _ | .plain _ => .misuse
termination_by tokens.length
decreasing_by assumption

/-- After `help`: at most one command. -/
def readHelp : List String → Request
  | [] => .help
  | [topic] => if topic = "list" || topic = "call" || topic = "help" then .help else .misuse
  | _ => .misuse

/-- Options, then the command. -/
def readCommand (outer : Option String) (tokens : List String) : Request :=
  match nextItem true tokens with
  | none => .misuse
  | some ⟨item, rest, _⟩ =>
    match item with
    | .settings path =>
      match once outer path with
      | some outer => readCommand outer rest
      | none => .misuse
    | .help => .help
    | .version => .version
    | .separator | .misuse | .unknown _ => .misuse
    | .plain "list" => readList outer none rest
    | .plain "call" => readName outer none rest
    | .plain "help" => readHelp rest
    | .plain _ => .misuse
termination_by tokens.length
decreasing_by assumption

def Request.ofTokens (tokens : List String) : Request := readCommand none tokens

/-! ## Running a request -/

/-- The status of a run and what it wrote to the two outputs. -/
structure Exit where
  code : Nat
  output : String
  diagnostics : String
  deriving DecidableEq, Repr

/-- The status of a call that gave an error value, and of a line that asks for nothing. -/
def errorCode : Nat := 2

def hostErrorCode : Nat := 1

/-- The status of a process that a fault ended. -/
def abortCode : Nat := 101

def coloured (colour : String) (s : String) : String := "\x1b[" ++ colour ++ "m" ++ s ++ "\x1b[0m"

def errorReport (message : String) : String := coloured "31" "error:" ++ " " ++ message

/-- A text with blanks after it up to a width in characters. -/
def padded (width : Nat) (s : String) : String :=
  s ++ .ofList (List.replicate (width - s.toList.length) ' ')

/-- The width of a name in a list, its colour codes included. -/
def nameWidth : Nat := 14

def listLine (b : Builtin) : String :=
  padded nameWidth (coloured "1" b.name) ++ " " ++ coloured "90" b.arity.text ++ "\n"

def listing : String := String.join (Builtin.sorted.map listLine)

/-- The value of an argument: of its document if it is one, else the text itself. -/
def argumentValue (s : String) : Value :=
  match Document.ofText? s with
  | some document => document.toValue
  | none => .string s

def unknownBuiltin (name : String) : String :=
  "unknown builtin '" ++ name ++ "' (run `ember list` to see what is available)"

/-- Calls a builtin under a guard and prints the result. -/
def runCall (guard : Guard) (name : String) (arguments : List String) (world : World) :
    Exit × World :=
  match Builtin.lookup? name with
  | none => (⟨hostErrorCode, "", errorReport (unknownBuiltin name)⟩, world)
  | some builtin =>
    let (result, host) :=
      guard.run (callBody builtin (arguments.map argumentValue)) (.ofWorld world)
    let printed := host.world.output
    match result with
    | .ok (.completed v) =>
      let text := v.inspect host.world.futures.isResolved
      (⟨if v.isError then errorCode else 0, printed ++ text ++ "\n", ""⟩, host.world)
    | .ok (.faulted _ diagnostic) =>
      (⟨hostErrorCode, printed, errorReport diagnostic⟩, host.world)
    | .error _ => (⟨abortCode, printed, ""⟩, host.world)

/-- Loads the settings that a request names, or the nearest ones. -/
def loadSettings (path : Option String) (world : World) :
    Except SettingsError Settings × World :=
  match path with
  | some path => Settings.load path world
  | none => Settings.loadCurrent world

def versionLine : String := "ember 0.1.0\n"

def Request.perform (request : Request) (world : World) : Exit × World :=
  match request with
  | .help => (⟨0, "", ""⟩, world)
  | .version => (⟨0, versionLine, ""⟩, world)
  | .misuse => (⟨errorCode, "", ""⟩, world)
  | .run path command =>
    match loadSettings path world with
    | (.error e, world) => (⟨hostErrorCode, "", errorReport e.message⟩, world)
    | (.ok settings, world) =>
      match command with
      | .list => (⟨0, listing, ""⟩, world)
      | .call name arguments => runCall settings.guard name arguments world

def run (tokens : List String) (world : World) : Exit × World :=
  (Request.ofTokens tokens).perform world

end CommandLine

end ScriptValues
