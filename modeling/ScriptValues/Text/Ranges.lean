/-!
# Classes of characters by their bounds

A class of code points is listed by the places where it begins and ends, alternately and in
ascending order.
-/

namespace ScriptValues

/-- Whether an odd number of bounds lies at or below `n`, that is, whether `n` is inside. -/
def withinBounds (bounds : List Nat) (n : Nat) : Bool :=
  (bounds.takeWhile (· ≤ n)).length % 2 == 1

end ScriptValues
