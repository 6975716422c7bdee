import ScriptValues.Operations.Texts

/-!
# Operations on lists

Every operation makes a new list. Searching uses the equality of the language; sorting is stable
and goes by the code-point order of the renderings.
-/

namespace ScriptValues

namespace Lists

/-- The number of characters, elements or entries. -/
def len (a : Arguments) : Result Value := do
  match ← a.value 0 with
  | .string s => return .int (Int64.ofNat s.toList.length)
  | .list items => return .int (Int64.ofNat items.length)
  | .mapping entries => return .int (Int64.ofNat entries.length)
  | _ => a.mismatch 0 (.kinds [.string, .list, .mapping])

def append (a : Arguments) : Result Value := do
  let items ← a.list 0
  let item ← a.value 1
  return .list (items ++ [item])

def prepend (a : Arguments) : Result Value := do
  let items ← a.list 0
  let item ← a.value 1
  return .list (item :: items)

/-- A list without its last element. -/
def pop (a : Arguments) : Result Value := do
  let items ← a.list 0
  if items.isEmpty then a.fail .emptyList
  else return .list (← InRange.slice items 0 (← InRange.difference items.length 1))

/-- A list without its first element. -/
def shift (a : Arguments) : Result Value := do
  let items ← a.list 0
  if items.isEmpty then a.fail .emptyList
  else return .list (← InRange.slice items 1 items.length)

/-- The elements at the positions of a half-open range, which has to lie in the list. -/
def slice (a : Arguments) : Result Value := do
  let items ← a.list 0
  let start ← a.int 1
  let stop ← a.int 2
  if Texts.outOfBounds start stop items.length then a.fail (.bounds start stop items.length)
  else return .list (← InRange.slice items (← InRange.position start) (← InRange.position stop))

/-- The nearest position in a list of this length. -/
def clamp (n : Int64) (length : Nat) : Result Nat := do
  InRange.position (← InRange.clamp n 0 length)

/-- The elements at the positions of a half-open range, cut down to the list. -/
def clampedSlice (a : Arguments) : Result Value := do
  let items ← a.list 0
  let start ← a.int 1
  let stop ← a.int 2
  let start ← clamp start items.length
  let stop ← clamp stop items.length
  if stop ≤ start then return .list []
  else return .list (← InRange.slice items start stop)

/-- The elements in the code-point order of their renderings. -/
def sorted (resolved : FutureId → Bool) (items : List Value) : List Value :=
  let keyed := items.map fun v => (v.inspect resolved, v)
  (keyed.mergeSort fun x y => x.1 ≤ y.1).map Prod.snd

def sort (resolved : FutureId → Bool) (a : Arguments) : Result Value := do
  return .list (sorted resolved (← a.list 0))

def reverse (a : Arguments) : Result Value := do
  return .list (← a.list 0).reverse

def concat (a : Arguments) : Result Value := do
  let items ← a.list 0
  let others ← a.list 1
  return .list (items ++ others)

/-- The first position of an equal element, or -1. -/
def indexOf (a : Arguments) : Result Value := do
  let items ← a.list 0
  let v ← a.value 1
  match items.findIdx? fun item => item.equals v with
  | some i => return .int (Int64.ofNat i)
  | none => return .int (-1)

def includes (a : Arguments) : Result Value := do
  let items ← a.list 0
  let v ← a.value 1
  return .bool (items.any fun item => item.equals v)

/-- The element at a position, which has to lie in the list. -/
def get (a : Arguments) : Result Value := do
  let items ← a.list 0
  let i ← a.int 1
  let found? := if 0 ≤ i.toInt then items[i.toInt.toNat]? else none
  match found? with
  | some v => return v
  | none => a.fail (.index i items.length)

/-- The first element, or null. -/
def first (a : Arguments) : Result Value := do
  return (← a.list 0).head?.getD .null

/-- The last element, or null. -/
def last (a : Arguments) : Result Value := do
  return (← a.list 0).getLast?.getD .null

end Lists

end ScriptValues
