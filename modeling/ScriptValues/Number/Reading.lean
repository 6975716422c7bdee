import ScriptValues.Number.Checked
import ScriptValues.Number.Double

/-!
# Reading numbers

`readInteger?` accepts an optional sign and ASCII digits whose value fits. `readDouble?` accepts an
optional sign and either digits with an optional point and an optional exponent, or one of the words
for infinity and NaN in any case; the double is the nearest one to the exact decimal.
-/

namespace ScriptValues

/-- Splits a sign off; a sign of its own means negative. -/
def takeSign : List Char → Bool × List Char
  | '+' :: cs => (false, cs)
  | '-' :: cs => (true, cs)
  | cs => (false, cs)

def digitsValue (cs : List Char) : Nat := Nat.ofDigitChars 10 cs 0

/-- The number that one or more digits and nothing else denote. -/
def readNatural? (cs : List Char) : Option Nat :=
  if !cs.isEmpty && cs.all Char.isDigit then some (digitsValue cs) else none

/-- The number of signed digits. -/
def readSigned? (cs : List Char) : Option Int :=
  let (negative, digits) := takeSign cs
  (readNatural? digits).map fun n => if negative then -(n : Int) else n

def readInteger? (cs : List Char) : Option Int64 := (readSigned? cs).bind Checked.ofInt?

/-- The exponent after the digits of a decimal: none at all, or a mark and signed digits. -/
def readExponent? : List Char → Option Int
  | [] => some 0
  | mark :: cs => if mark = 'e' || mark = 'E' then readSigned? cs else none

/-- The double that an unsigned decimal denotes under the given sign. -/
def readDecimal? (negative : Bool) (cs : List Char) : Option Float :=
  let whole := cs.takeWhile Char.isDigit
  let rest := cs.dropWhile Char.isDigit
  let (places, tail) :=
    match rest with
    | '.' :: more => (more.takeWhile Char.isDigit, more.dropWhile Char.isDigit)
    | _ => ([], rest)
  if whole.isEmpty && places.isEmpty then none
  else
    (readExponent? tail).map fun exponent =>
      Double.ofDecimal negative (digitsValue (whole ++ places)) (exponent - places.length)

def readDouble? (cs : List Char) : Option Float :=
  let (negative, unsigned) := takeSign cs
  let word := String.ofList (unsigned.map Char.toLower)
  if word = "inf" || word = "infinity" then
    some (Double.ofBits (Double.signBits negative + Double.infinityBits))
  else if word = "nan" then some Double.notANumber
  else readDecimal? negative unsigned

end ScriptValues
