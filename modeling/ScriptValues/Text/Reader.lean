/-!
# Readers

A reader takes characters from the front of a text, or refuses. Alternatives start again from the
same place.
-/

namespace ScriptValues

/-- Takes characters from the front of a text. -/
abbrev Reader (α : Type) := StateT (List Char) Option α

namespace Reader

variable {α : Type}

/-- The next character, which stays. -/
def peek? : Reader (Option Char) := do return (← get).head?

def remaining : Reader (List Char) := get

/-- Takes one character that a test accepts. -/
def satisfy (accept : Char → Bool) : Reader Char := fun cs =>
  match cs with
  | c :: rest => if accept c then some (c, rest) else none
  | [] => none

def char (c : Char) : Reader Unit := do
  let _ ← satisfy (· = c)

def literal : List Char → Reader Unit
  | [] => return
  | c :: cs => do
    char c
    literal cs

/-- Takes the longest run of accepted characters. -/
def takeWhile (accept : Char → Bool) : Reader (List Char) := fun cs =>
  some (cs.takeWhile accept, cs.dropWhile accept)

/-- Takes the longest run of accepted characters, which has to have one. -/
def takeWhile1 (accept : Char → Bool) : Reader (List Char) := do
  let run ← takeWhile accept
  if run.isEmpty then failure else return run

/-- Takes exactly `n` accepted characters. -/
def takeN (accept : Char → Bool) : Nat → Reader (List Char)
  | 0 => return []
  | n + 1 => do
    let c ← satisfy accept
    let rest ← takeN accept n
    return c :: rest

/-- What a reader takes, if it does not refuse. -/
def optional? (r : Reader α) : Reader (Option α) := (some <$> r) <|> pure none

/-- What a reader makes of a whole text. -/
def readAll (r : Reader α) (cs : List Char) : Option α :=
  match r cs with
  | some (a, []) => some a
  | _ => none

end Reader

end ScriptValues
