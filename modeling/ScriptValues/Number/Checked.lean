import ScriptValues.Number.Powers

/-!
# Checked 64-bit integers

Every operation computes the exact integer and answers only if it fits. A quotient truncates toward
zero; a remainder is given only where the quotient fits. Powers square and multiply, so that a
product too large stops the computation.
-/

namespace ScriptValues

namespace Checked

/-- The 64-bit integer of this value, if there is one. -/
def ofInt? (n : Int) : Option Int64 :=
  if Int64.minValue.toInt ≤ n ∧ n ≤ Int64.maxValue.toInt then some (Int64.ofInt n) else none

def add? (a b : Int64) : Option Int64 := ofInt? (a.toInt + b.toInt)

def sub? (a b : Int64) : Option Int64 := ofInt? (a.toInt - b.toInt)

def mul? (a b : Int64) : Option Int64 := ofInt? (a.toInt * b.toInt)

/-- The quotient truncated toward zero. -/
def div? (a b : Int64) : Option Int64 :=
  if b = 0 then none else ofInt? (a.toInt.tdiv b.toInt)

/-- The remainder of the truncated quotient, where that quotient fits. -/
def rem? (a b : Int64) : Option Int64 :=
  (div? a b).bind fun _ => ofInt? (a.toInt.tmod b.toInt)

def abs? (a : Int64) : Option Int64 := ofInt? a.toInt.natAbs

/-- `result · base ^ exponent` by squaring, for a positive exponent. -/
def powLoop? (result base : Int64) (exponent : Nat) : Option Int64 :=
  if exponent ≤ 1 then mul? result base
  else do
    let result ← if exponent % 2 = 1 then mul? result base else some result
    let base ← mul? base base
    powLoop? result base (exponent / 2)
termination_by exponent

/-- The largest exponent that is tried at all. -/
def maxExponent : Nat := twoTo 32 - 1

/-- The power to a natural exponent no larger than `maxExponent`. -/
def pow? (a : Int64) (exponent : Nat) : Option Int64 :=
  if maxExponent < exponent then none
  else if exponent = 0 then some 1
  else powLoop? 1 a exponent

end Checked

end ScriptValues
