import ScriptValues.Json.Document
import ScriptValues.Number.Reading

/-!
# Numbers in JSON texts

A number without fraction and exponent that fits 64 bits, signed or not, is an integer; a negative
zero is a double. Any other number becomes a double in two steps: as many leading digits as fit
64 bits are read as an integer and rounded, then multiplied or divided by a power of ten. A result
too large for a double is refused.
-/

namespace ScriptValues

namespace Document

/-- The largest significand that is read. -/
def maxSignificand : Nat := twoTo 64 - 1

/-- The largest power of ten that is a double. -/
def maxPower : Nat := 308

/-- The largest number that is read as an exponent. -/
def maxExponent : Nat := twoTo 31 - 1

/-- Appends digits while the number stays in range: the number, and how many digits are left. -/
def absorb (n : Nat) : List Char → Nat × Nat
  | [] => (n, 0)
  | d :: ds =>
    let next := Nat.ofDigitChars 10 [d] n
    if maxSignificand < next then (n, ds.length + 1) else absorb next ds

def tenDouble (n : Nat) : Float := Double.ofDecimal false 1 n

/-- `x · 10 ^ exponent`, computed in doubles; none if it is too large. -/
def scaled? (x : Float) (exponent : Int) : Option Float :=
  if 0 ≤ exponent then
    if exponent ≤ maxPower then
      let y := x * tenDouble exponent.toNat
      match Double.decode y with
      | .finite .. => some y
      | _ => none
    else if Double.isZero x then some x
    else none
  else if -(maxPower : Int) ≤ exponent then some (x / tenDouble exponent.natAbs)
  else if Double.isZero x then some x
  else scaled? (x / tenDouble maxPower) (exponent + maxPower)
termination_by exponent.natAbs
decreasing_by simp only [maxPower] at *; omega

def signed (negative : Bool) (x : Float) : Float := if negative then -x else x

/-- The parts of a number as they are written. -/
structure NumberParts where
  negative : Bool
  whole : List Char
  fraction : Option (List Char)
  exponent : Option (Bool × List Char)

/-- The double of a number that is no integer. -/
def NumberParts.double? (p : NumberParts) : Option Float :=
  let (leading, dropped) := absorb 0 p.whole
  let places := p.fraction.getD []
  let (significand, left) := absorb leading places
  let shift : Int := dropped - (places.length - left : Nat)
  match p.exponent with
  | none => (scaled? (Double.ofInt significand) shift).map (signed p.negative)
  | some (negative, digits) =>
    let size := digitsValue digits
    if maxExponent < size then
      if significand ≠ 0 && !negative then none else some (signed p.negative (Double.ofInt 0))
    else
      let exponent : Int := if negative then shift - size else shift + size
      (scaled? (Double.ofInt significand) exponent).map (signed p.negative)

def NumberParts.document? (p : NumberParts) : Option Document :=
  let size := digitsValue p.whole
  let isInteger := p.fraction.isNone && p.exponent.isNone
  if isInteger && !p.negative && size ≤ maxSignificand then some (.integer size)
  else if isInteger && p.negative && 0 < size && size ≤ twoTo 63 then some (.integer (-size))
  else p.double?.map .double

end Document

end ScriptValues
