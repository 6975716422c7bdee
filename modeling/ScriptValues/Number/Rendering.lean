import ScriptValues.Number.Shortest

/-!
# The text of a number

Integers are written in decimal. A whole double below `10 ^ 15` keeps one decimal place, so that it
does not look like an integer; any other finite double is written with its shortest digits,
positionally.
-/

namespace ScriptValues

def integerText (n : Int64) : String := n.toInt.repr

/-- From here on a whole double is written without a decimal place. -/
def wholeLimit : Nat := tenTo 15

/-- The text of the magnitude of a finite double. -/
def magnitudeText (significand scale : Nat) : String :=
  let units := significand * twoTo scale
  let whole := units / Double.unitsPerOne
  if units % Double.unitsPerOne = 0 && whole < wholeLimit then whole.repr ++ ".0"
  else
    let (n, k) := Shortest.decimal significand scale
    positional n k

def Double.text (x : Float) : String :=
  match Double.decode x with
  | .nan => "NaN"
  | .infinite negative => if negative then "-inf" else "inf"
  | .finite negative significand scale =>
    (if negative then "-" else "") ++ magnitudeText significand scale

end ScriptValues
