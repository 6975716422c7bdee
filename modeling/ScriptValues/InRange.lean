import ScriptValues.Failure
import ScriptValues.Number.Checked

/-!
# Operations that are only defined in range

Cutting a list, subtracting, bringing a number into bounds and indexing are host operations: used
outside their range they are faults of the host, not failures of the script. Each has a lemma that
says when it answers.
-/

namespace ScriptValues

namespace InRange

variable {α : Type}

def fault (message : String) : Result α := .error (.fault (.text message))

def difference (a b : Nat) : Result Nat :=
  if b ≤ a then .ok (a - b) else fault "attempt to subtract with overflow"

/-- A 64-bit integer as a position. -/
def position (n : Int64) : Result Nat :=
  if 0 ≤ n.toInt then .ok n.toInt.toNat else fault "attempt to convert a negative position"

/-- The number between two bounds that is nearest to a 64-bit integer. -/
def clamp (n : Int64) (low high : Int) : Result Int64 :=
  if low ≤ high then .ok (.ofInt (max low (min n.toInt high)))
  else fault "assertion failed: min <= max"

/-- The difference of two 64-bit integers. -/
def gap (a b : Int64) : Result Int64 :=
  match Checked.sub? a b with
  | some n => .ok n
  | none => fault "attempt to subtract with overflow"

/-- The elements at the positions `start`, …, `stop - 1`. -/
def slice (items : List α) (start stop : Nat) : Result (List α) :=
  if start ≤ stop ∧ stop ≤ items.length then .ok ((items.take stop).drop start)
  else fault "range out of bounds of slice"

theorem difference_of_le {a b : Nat} (h : b ≤ a) : difference a b = .ok (a - b) := if_pos h

theorem position_of_nonneg {n : Int64} (h : 0 ≤ n.toInt) : position n = .ok n.toInt.toNat :=
  if_pos h

theorem clamp_of_le {n : Int64} {low high : Int} (h : low ≤ high) :
    clamp n low high = .ok (.ofInt (max low (min n.toInt high))) :=
  if_pos h

theorem slice_of_le {items : List α} {start stop : Nat} (h : start ≤ stop)
    (hs : stop ≤ items.length) : slice items start stop = .ok ((items.take stop).drop start) :=
  if_pos ⟨h, hs⟩

end InRange

end ScriptValues
