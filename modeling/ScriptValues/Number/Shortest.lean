import ScriptValues.Number.Double

/-!
# Shortest decimals

`Shortest.decimal` finds the decimal `n · 10 ^ k` with the coarsest grid `k` that has a point in the
interval of reals that round to a given double (its ends included when the significand is even).
Only the two grid points around the double need a test. Of two hits the nearer one is taken, and
an exact tie goes up.
-/

namespace ScriptValues

namespace Shortest

/-- The interval of reals that round to `significand · 2 ^ scale` units, in quarters of a unit.
Below a power of two the neighbours are half as far apart. -/
structure Interval where
  low : Nat
  value : Nat
  high : Nat
  closed : Bool
  deriving Repr

/-- The interval of a positive double. -/
def Interval.ofDouble (significand scale : Nat) : Interval :=
  let step := twoTo scale
  let value := 4 * significand * step
  let below := if significand = twoTo 52 && 0 < scale then step else 2 * step
  ⟨value - below, value, value + 2 * step, significand % 2 == 0⟩

/-- Whether `p / d` quarters of a unit lie in the interval. -/
def Interval.contains (i : Interval) (p d : Nat) : Bool :=
  if i.closed then i.low * d ≤ p && p ≤ i.high * d else i.low * d < p && p < i.high * d

/-- The numerator and denominator of `10 ^ k` in quarters of a unit. -/
def gridStep (k : Int) : Nat × Nat :=
  match k with
  | .ofNat k => (4 * Double.unitsPerOne * tenTo k, 1)
  | .negSucc k => (4 * Double.unitsPerOne, tenTo (k + 1))

/-- The point of grid `k` to print, if one of the two around the value lies in the interval. -/
def hit? (i : Interval) (k : Int) : Option Nat :=
  let (step, d) := gridStep k
  let below := i.value * d / step
  let above := below + 1
  match i.contains (below * step) d, i.contains (above * step) d with
  | true, true =>
    if i.value * d - below * step < above * step - i.value * d then some below else some above
  | true, false => some below
  | false, true => some above
  | false, false => none

/-- Tries the grids `10 ^ (j - 1074)` downwards; the last one holds every double. -/
def search (i : Interval) : Nat → Nat × Int
  | 0 => (i.value * tenTo 1074 / (4 * Double.unitsPerOne), -1074)
  | j + 1 =>
    match hit? i (j + 1 - 1074 : Int) with
    | some n => (n, (j + 1 - 1074 : Int))
    | none => search i j

/-- The shortest decimal `(n, k)`, meaning `n · 10 ^ k`, that rounds to a positive double. No
double reaches `10 ^ 310`. -/
def decimal (significand scale : Nat) : Nat × Int :=
  search (.ofDouble significand scale) (1074 + 310)

end Shortest

/-- The text of `n · 10 ^ k` without an exponent. -/
def positional (n : Nat) (k : Int) : String :=
  match k with
  | .ofNat zeros => n.repr ++ String.ofList (List.replicate zeros '0')
  | .negSucc k =>
    let places := k + 1
    let digits := n.repr.toList
    let padded := List.replicate (places + 1 - digits.length) '0' ++ digits
    let whole := padded.length - places
    String.ofList (padded.take whole) ++ "." ++ String.ofList (padded.drop whole)

end ScriptValues
