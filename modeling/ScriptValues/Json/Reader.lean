import ScriptValues.Json.Number
import ScriptValues.Text.Hex
import ScriptValues.Text.Reader

/-!
# Reading JSON texts

The grammar is the strict one: blanks are space, tab, carriage return and line feed; texts hold no
raw controls and no lone surrogates; numbers have no needless zeros; nothing follows the document.
Of members with one name the last counts. Nesting is limited.
-/

namespace ScriptValues

namespace Document

/-- How many arrays and objects may be nested. -/
def maxNesting : Nat := 127

/-- Whether a character may stand between tokens. -/
def isGap (c : Char) : Bool := c = ' ' || c = '\t' || c = '\r' || c = '\n'

/-- Passes over blanks. -/
def skipGaps : Reader Unit := do
  let _ ← Reader.takeWhile isGap

/-- The number of four hexadecimal digits. -/
def unit? (a b c d : Char) : Option Nat := hexValue? [a, b, c, d]

/-- Whether a code unit opens a surrogate pair. -/
def isHighUnit (n : Nat) : Bool := 0xd800 ≤ n && n < 0xdc00

/-- The code point of a surrogate pair. -/
def pair? (high low : Nat) : Option Char :=
  if 0xdc00 ≤ low && low < 0xe000 then
    scalar? (0x10000 + (high - 0xd800) * 0x400 + (low - 0xdc00))
  else none

/-- The character of a short escape. -/
def shortEscape? : Char → Option Char
  | '"' => some '"'
  | '\\' => some '\\'
  | '/' => some '/'
  | 'b' => some '\x08'
  | 'f' => some '\x0c'
  | 'n' => some '\n'
  | 'r' => some '\r'
  | 't' => some '\t'
  | _ => none

/-- The characters up to the closing quote, and what follows it. -/
def textBody : List Char → Option (List Char × List Char)
  | [] => none
  | '"' :: rest => some ([], rest)
  | '\\' :: 'u' :: a :: b :: c :: d :: rest =>
    match unit? a b c d with
    | none => none
    | some n =>
      if isHighUnit n then
        match rest with
        | '\\' :: 'u' :: e :: f :: g :: h :: rest =>
          match (unit? e f g h).bind (pair? n) with
          | none => none
          | some joined => (textBody rest).map fun (cs, after) => (joined :: cs, after)
        | _ => none
      else
        match scalar? n with
        | none => none
        | some escaped => (textBody rest).map fun (cs, after) => (escaped :: cs, after)
  | '\\' :: c :: rest =>
    match shortEscape? c with
    | none => none
    | some escaped => (textBody rest).map fun (cs, after) => (escaped :: cs, after)
  | c :: rest =>
    if c.toNat < 0x20 then none
    else (textBody rest).map fun (cs, after) => (c :: cs, after)

def readText : Reader String := do
  Reader.char '"'
  let cs ← (textBody : StateT (List Char) Option (List Char))
  return .ofList cs

/-- The digits before the point: a zero alone, or digits that do not begin with one. -/
def readWhole : Reader (List Char) := do
  match ← Reader.takeWhile1 Char.isDigit with
  | '0' :: _ :: _ => failure
  | digits => return digits

/-- The digits after a point. -/
def readFraction : Reader (List Char) := do
  Reader.char '.'
  Reader.takeWhile1 Char.isDigit

/-- The sign and the digits after an exponent mark. -/
def readExponentPart : Reader (Bool × List Char) := do
  let _ ← Reader.satisfy fun c => c = 'e' || c = 'E'
  let sign ← Reader.optional? (Reader.satisfy fun c => c = '+' || c = '-')
  let digits ← Reader.takeWhile1 Char.isDigit
  return (sign = some '-', digits)

/-- A part of a number that is there if its first character is. -/
def readPart {α : Type} (opens : Char → Bool) (part : Reader α) : Reader (Option α) := do
  match ← Reader.peek? with
  | some c => if opens c then some <$> part else return none
  | none => return none

def readNumber : Reader Document := do
  let sign ← Reader.optional? (Reader.char '-')
  let whole ← readWhole
  let fraction ← readPart (· = '.') readFraction
  let exponent ← readPart (fun c => c = 'e' || c = 'E') readExponentPart
  match NumberParts.document? ⟨sign.isSome, whole, fraction, exponent⟩ with
  | some document => return document
  | none => failure

mutual

/-- A document with blanks before it, nested at most `depth` deep; every step takes fuel. -/
def readValue : Nat → Nat → Reader Document
  | 0, _ => failure
  | fuel + 1, depth => do
    skipGaps
    match ← Reader.peek? with
    | some 'n' => do Reader.literal ['n', 'u', 'l', 'l']; return .null
    | some 't' => do Reader.literal ['t', 'r', 'u', 'e']; return .bool true
    | some 'f' => do Reader.literal ['f', 'a', 'l', 's', 'e']; return .bool false
    | some '"' => do return .text (← readText)
    | some '[' => do
      if depth = 0 then failure
      Reader.char '['
      skipGaps
      if (← Reader.peek?) = some ']' then
        Reader.char ']'
        return .array []
      else return .array (← readItems fuel (depth - 1))
    | some '\x7b' => do
      if depth = 0 then failure
      Reader.char '\x7b'
      skipGaps
      if (← Reader.peek?) = some '\x7d' then
        Reader.char '\x7d'
        return .object []
      else return .object (Entries.ofList (← readMembers fuel (depth - 1)))
    | _ => readNumber

/-- One or more elements up to the closing bracket. -/
def readItems : Nat → Nat → Reader (List Document)
  | 0, _ => failure
  | fuel + 1, depth => do
    let item ← readValue fuel depth
    skipGaps
    if (← Reader.peek?) = some ',' then
      Reader.char ','
      return item :: (← readItems fuel depth)
    else
      Reader.char ']'
      return [item]

/-- One or more members up to the closing brace. -/
def readMembers : Nat → Nat → Reader (List (String × Document))
  | 0, _ => failure
  | fuel + 1, depth => do
    skipGaps
    let name ← readText
    skipGaps
    Reader.char ':'
    let value ← readValue fuel depth
    skipGaps
    if (← Reader.peek?) = some ',' then
      Reader.char ','
      return (name, value) :: (← readMembers fuel depth)
    else
      Reader.char '\x7d'
      return [(name, value)]

end

def ofText? (s : String) : Option Document :=
  let cs := s.toList
  Reader.readAll (do
    let document ← readValue (2 * cs.length + 2) maxNesting
    skipGaps
    return document) cs

end Document

end ScriptValues
