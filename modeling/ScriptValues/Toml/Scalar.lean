import ScriptValues.Number.Reading
import ScriptValues.Text.Hex
import ScriptValues.Text.Reader
import ScriptValues.Toml.Table

/-!
# TOML scalars

Texts in four forms, numbers, dates and times. A number may have single underscores between digits;
an integer has to fit 64 bits, and no double may grow to positive infinity.
-/

namespace ScriptValues

namespace Toml

/-- Space and tab. -/
def isGap (c : Char) : Bool := c = ' ' || c = '\t'

/-- Passes over spaces and tabs. -/
def skipGaps : Reader Unit := do
  let _ ← Reader.takeWhile isGap

/-- A line end: a line feed, with or without a carriage return before it. -/
def newline : Reader Unit :=
  Reader.literal ['\n'] <|> Reader.literal ['\r', '\n']

/-- Whether a character may stand in a comment. -/
def isCommentChar (c : Char) : Bool := c = '\t' || (0x20 ≤ c.toNat && c.toNat ≠ 0x7f)

/-- A comment, without the line end. -/
def comment : Reader Unit := do
  Reader.char '#'
  let _ ← Reader.takeWhile isCommentChar

/-! ## Texts -/

/-- The character of a short escape. -/
def shortEscape? : Char → Option Char
  | 'b' => some '\x08'
  | 't' => some '\t'
  | 'n' => some '\n'
  | 'f' => some '\x0c'
  | 'r' => some '\r'
  | '"' => some '"'
  | '\\' => some '\\'
  | _ => none

/-- An escape after its backslash. -/
def escaped : Reader Char := do
  let c ← Reader.satisfy fun _ => true
  let size := if c = 'u' then 4 else if c = 'U' then 8 else 0
  if size = 0 then
    match shortEscape? c with
    | some e => return e
    | none => failure
  else
    let digits ← Reader.takeN (fun d => (hexDigit? d).isSome) size
    match (hexValue? digits).bind scalar? with
    | some e => return e
    | none => failure

/-- Whether a character may stand unescaped in a text with escapes. -/
def isPlain (c : Char) : Bool := isCommentChar c && c ≠ '"' && c ≠ '\\'

/-- Whether a character may stand in a text without escapes. -/
def isLiteral (c : Char) : Bool := isCommentChar c && c ≠ '\''

/-- Repeats a reader of characters while it accepts; every round takes fuel. -/
def manyChars (part : Reader (List Char)) : Nat → Reader (List Char)
  | 0 => return []
  | fuel + 1 => do
    match ← Reader.optional? part with
    | none => return []
    | some cs => return cs ++ (← manyChars part fuel)

/-- Enough fuel to reach the end of the text. -/
def fuel : Reader Nat := do return (← Reader.remaining).length + 1

/-- One character of a text with escapes. -/
def basicChar : Reader (List Char) :=
  (do return [← Reader.satisfy isPlain]) <|> (do Reader.char '\\'; return [← escaped])

/-- A text on one line, with escapes. -/
def basicText : Reader (List Char) := do
  Reader.char '"'
  let cs ← manyChars basicChar (← fuel)
  Reader.char '"'
  return cs

/-- A text on one line, without escapes. -/
def literalText : Reader (List Char) := do
  Reader.char '\''
  let cs ← Reader.takeWhile isLiteral
  Reader.char '\''
  return cs

/-- A line end as one character. -/
def lineChar : Reader (List Char) := do
  newline
  return ['\n']

/-- A backslash at the end of a line, with the blanks and line ends that follow it. -/
def lineContinuation : Reader (List Char) := do
  Reader.char '\\'
  skipGaps
  newline
  let blank : Reader (List Char) := (do return [← Reader.satisfy isGap]) <|> lineChar
  let _ ← manyChars blank (← fuel)
  return []

/-- One or two quotes that something else follows. -/
def innerQuotes (quote : Char) : Reader (List Char) := do
  let quotes ← Reader.takeWhile (· = quote)
  if quotes.length = 1 || quotes.length = 2 then return quotes else failure

/-- The closing quotes of a text of several lines, after at most two that belong to it. -/
def closingQuotes (quote : Char) : Reader (List Char) := do
  let quotes ← Reader.takeWhile (· = quote)
  if 3 ≤ quotes.length && quotes.length ≤ 5 then return quotes.drop 3 else failure

/-- A text of several lines between three quotes; a line end right after the first ones does not
belong to it. -/
def multilineText (quote : Char) (part : Reader (List Char)) : Reader (List Char) := do
  Reader.literal [quote, quote, quote]
  let _ ← Reader.optional? newline
  let cs ← manyChars (part <|> lineChar <|> innerQuotes quote) (← fuel)
  return cs ++ (← closingQuotes quote)

/-- A text in any of the four forms. -/
def text : Reader String := do
  let literalChar : Reader (List Char) := do return [← Reader.satisfy isLiteral]
  let cs ←
    multilineText '"' (lineContinuation <|> basicChar)
      <|> basicText
      <|> multilineText '\'' literalChar
      <|> literalText
  return .ofList cs

/-! ## Numbers -/

/-- One or more accepted digits, with single underscores between them left out. -/
def digitGroups (accept : Char → Bool) : Reader (List Char) := do
  let first ← Reader.satisfy accept
  let more : Reader (List Char) := do
    let _ ← Reader.optional? (Reader.char '_')
    return [← Reader.satisfy accept]
  return first :: (← manyChars more (← fuel))

def sign : Reader Bool := do
  match ← Reader.optional? (Reader.satisfy fun c => c = '+' || c = '-') with
  | some '-' => return true
  | _ => return false

/-- The digits of a decimal integer: a zero alone, or digits that do not begin with one. -/
def decimalDigits : Reader (List Char) := do
  match ← Reader.peek? with
  | some '0' => do
    Reader.char '0'
    return ['0']
  | _ => digitGroups Char.isDigit

/-- A 64-bit integer of this value. -/
def integerItem (n : Int) : Reader Item :=
  match Checked.ofInt? n with
  | some i => return .integer i
  | none => failure

/-- An integer in a base other than ten. -/
def basedInteger (mark : Char) (base : Nat) : Reader Item := do
  Reader.literal ['0', mark]
  let digits ← digitGroups fun c => (hexDigit? c).any (· < base)
  integerItem (digits.foldl (fun n c => base * n + (hexDigit? c).getD 0) 0 : Nat)

def integer : Reader Item :=
  basedInteger 'x' 16 <|> basedInteger 'o' 8 <|> basedInteger 'b' 2 <|> do
    let negative ← sign
    let n := digitsValue (← decimalDigits)
    integerItem (if negative then -(n : Int) else n)

/-- The digits after a point. -/
def fractionDigits : Reader (List Char) := do
  Reader.char '.'
  digitGroups Char.isDigit

/-- The number after an exponent mark. -/
def exponentNumber : Reader Int := do
  let _ ← Reader.satisfy fun c => c = 'e' || c = 'E'
  let negative ← sign
  let n := digitsValue (← digitGroups Char.isDigit)
  return if negative then -(n : Int) else n

/-- A decimal with a fraction or an exponent. -/
def decimal : Reader Item := do
  let negative ← sign
  let whole ← decimalDigits
  let places ← Reader.optional? fractionDigits
  let exponent ← Reader.optional? exponentNumber
  if places.isNone && exponent.isNone then failure
  let digits := whole ++ places.getD []
  let x := Double.ofDecimal negative (digitsValue digits)
    (exponent.getD 0 - (places.getD []).length)
  if Double.decode x = .infinite false then failure
  return .double x

/-- Infinity or NaN, with or without a sign. -/
def special : Reader Item := do
  let negative ← sign
  (do
    Reader.literal ['i', 'n', 'f']
    return .double (Double.ofBits (Double.signBits negative + Double.infinityBits)))
  <|> (do
    Reader.literal ['n', 'a', 'n']
    return .double Double.notANumber)

/-! ## Dates and times -/

/-- A number of exactly `size` digits in a range. -/
def fieldIn (size low high : Nat) : Reader (List Char) := do
  let digits ← Reader.takeN Char.isDigit size
  let n := digitsValue digits
  if low ≤ n && n ≤ high then return digits else failure

/-- How many days a month has. -/
def daysIn (year month : Nat) : Nat :=
  let leap := year % 4 = 0 && (year % 100 ≠ 0 || year % 400 = 0)
  if month = 2 then (if leap then 29 else 28)
  else if month = 4 || month = 6 || month = 9 || month = 11 then 30
  else 31

def date : Reader (List Char) := do
  let year ← Reader.takeN Char.isDigit 4
  Reader.char '-'
  let month ← fieldIn 2 1 12
  Reader.char '-'
  let day ← fieldIn 2 1 (daysIn (digitsValue year) (digitsValue month))
  return year ++ '-' :: month ++ '-' :: day

def time : Reader (List Char) := do
  let hour ← fieldIn 2 0 23
  Reader.char ':'
  let minute ← fieldIn 2 0 59
  Reader.char ':'
  let second ← fieldIn 2 0 60
  let fraction ← Reader.optional? (do
    Reader.char '.'
    return '.' :: (← Reader.takeWhile1 Char.isDigit))
  return hour ++ ':' :: minute ++ ':' :: second ++ fraction.getD []

def offset : Reader (List Char) :=
  (do return [← Reader.satisfy fun c => c = 'Z' || c = 'z']) <|> do
    let mark ← Reader.satisfy fun c => c = '+' || c = '-'
    let hour ← fieldIn 2 0 23
    Reader.char ':'
    let minute ← fieldIn 2 0 59
    return mark :: hour ++ ':' :: minute

/-- A date, a time, or both. -/
def moment : Reader Item := do
  let dated : Reader (List Char) := do
    let d ← date
    let t ← Reader.optional? (do
      let mark ← Reader.satisfy fun c => c = 'T' || c = 't' || c = ' '
      let t ← time
      let o ← Reader.optional? offset
      return mark :: t ++ o.getD [])
    return d ++ t.getD []
  return .moment (.ofList (← dated <|> time))

end Toml

end ScriptValues
