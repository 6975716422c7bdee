import ScriptValues.Number.Powers

/-!
# Doubles as whole numbers of units

A *unit* is `2⁻¹⁰⁷⁴`, the smallest positive double, so that every finite double is a whole number
of units. `Double.decode` reads the 64 bits, `Double.units?` gives the exact value, and
`Double.nearest` goes back: it rounds a quotient of whole numbers of units to the nearest double,
ties to the even significand. Order, integral parts and remainders are those of the exact values.
-/

namespace ScriptValues

/-- What the 64 bits of a double say; a finite one is `± significand · 2 ^ scale` units. -/
inductive Double where
  | nan
  | infinite (negative : Bool)
  | finite (negative : Bool) (significand scale : Nat)
  deriving DecidableEq, Repr

namespace Double

/-- The value 1 in units. -/
def unitsPerOne : Nat := twoTo 1074

/-- The bits of positive infinity; the magnitudes below it are the finite ones, in order. -/
def infinityBits : Nat := 2047 * twoTo 52

/-- The sign bit as a number. -/
def signBits (negative : Bool) : Nat := if negative then twoTo 63 else 0

/-- Reads sign, exponent field and fraction field off the bits. -/
def decodeBits (bits : Nat) : Double :=
  let negative : Bool := bits / twoTo 63 % 2 == 1
  let exponent := bits / twoTo 52 % 2048
  let fraction := bits % twoTo 52
  if exponent = 2047 then
    if fraction = 0 then .infinite negative else .nan
  else if exponent = 0 then .finite negative fraction 0
  else .finite negative (twoTo 52 + fraction) (exponent - 1)

def decode (x : Float) : Double := decodeBits x.toBits.toNat

def ofBits (bits : Nat) : Float := Float.ofBits (UInt64.ofNat bits)

/-- The one double that is not a number. -/
def notANumber : Float := ofBits (infinityBits + twoTo 51)

/-- The exact value of a finite double in units. -/
def units? (x : Float) : Option Int :=
  match decode x with
  | .finite negative significand scale =>
    let magnitude : Nat := significand * twoTo scale
    some (if negative then -(magnitude : Int) else magnitude)
  | _ => none

/-- Whether the sign bit is set (a NaN counts as positive). -/
def isNegative (x : Float) : Bool :=
  match decode x with
  | .nan => false
  | .infinite negative => negative
  | .finite negative _ _ => negative

/-! ## Rounding -/

/-- The whole number nearest to `a / d`, a tie to the even one. -/
def roundHalfEven (a d : Nat) : Nat :=
  let quotient := a / d
  let rest := a % d
  if 2 * rest < d then quotient
  else if d < 2 * rest then quotient + 1
  else quotient + quotient % 2

/-- The scale at which a magnitude of about `whole` units has a significand below `2 ^ 53`. -/
def scaleOf (whole : Nat) : Nat := if whole < twoTo 53 then 0 else whole.log2 - 52

/-- The bits of the magnitude nearest to `a / d` units; infinity from half a step above the
largest finite one on. Adding the scale's field carries into it when a significand rounds up. -/
def nearestMagnitude (a d : Nat) : Nat :=
  let scale := scaleOf (a / d)
  min (scale * twoTo 52 + roundHalfEven a (d * twoTo scale)) infinityBits

/-- The double of the given sign nearest to `± a / d` units. -/
def nearest (negative : Bool) (a d : Nat) : Float :=
  ofBits (signBits negative + nearestMagnitude a d)

/-- The double nearest to a whole number. -/
def ofInt (n : Int) : Float := nearest (n < 0) (n.natAbs * unitsPerOne) 1

/-- The double nearest to `± digits · 10 ^ exponent`. Far outside the range of doubles the answer
is infinity or zero, whatever the digits are. -/
def ofDecimal (negative : Bool) (digits : Nat) (exponent : Int) : Float :=
  let length : Int := digits.repr.length
  if digits = 0 || length + exponent < -330 then ofBits (signBits negative)
  else if 310 < length + exponent then ofBits (signBits negative + infinityBits)
  else
    match exponent with
    | .ofNat e => nearest negative (digits * tenTo e * unitsPerOne) 1
    | .negSucc e => nearest negative (digits * unitsPerOne) (tenTo (e + 1))

/-! ## Order -/

/-- A place on the line for every double but NaN: the value in units, the infinities outside. -/
def place? (x : Float) : Option Int :=
  match decode x with
  | .nan => none
  | .infinite negative => some (if negative then -(twoTo 2100 : Int) else twoTo 2100)
  | .finite .. => units? x

/-- `x ≤ y`; NaN is comparable to nothing. -/
def le (x y : Float) : Bool :=
  match place? x, place? y with
  | some a, some b => a ≤ b
  | _, _ => false

/-- `x < y`; NaN is comparable to nothing. -/
def lt (x y : Float) : Bool :=
  match place? x, place? y with
  | some a, some b => a < b
  | _, _ => false

/-- Equality of the numbers: the two zeros are equal, and NaN differs from itself. -/
def eq (x y : Float) : Bool :=
  match place? x, place? y with
  | some a, some b => a = b
  | _, _ => false

/-- Both zeros, and nothing else. -/
def isZero (x : Float) : Bool := place? x = some 0

def abs (x : Float) : Float := ofBits (x.toBits.toNat % twoTo 63)

/-! ## Integral parts and remainder -/

/-- The ways to make a whole number of a double. -/
inductive Rounding where
  | down
  | up
  | towardZero
  | halfAwayFromZero
  deriving DecidableEq, Repr

/-- The whole number that a mode makes of `n / d`. -/
def Rounding.apply (n : Int) (d : Nat) : Rounding → Int
  | .down => n.fdiv d
  | .up => -((-n).fdiv d)
  | .towardZero => n.tdiv d
  | .halfAwayFromZero => n.sign * ((2 * n.natAbs + d) / (2 * d) : Nat)

/-- The whole number that a mode makes of a finite double. -/
def integral? (mode : Rounding) (x : Float) : Option Int :=
  (units? x).map fun n => mode.apply n unitsPerOne

/-- The remainder of the exact values, with the sign of the dividend; NaN where there is none. -/
def remainder (x y : Float) : Float :=
  match units? x, units? y, decode y with
  | some a, some b, _ =>
    if b = 0 then notANumber else nearest (isNegative x) (a.tmod b).natAbs 1
  | some _, none, .infinite _ => x
  | _, _, _ => notANumber

end Double

end ScriptValues
