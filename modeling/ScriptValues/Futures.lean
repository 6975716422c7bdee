import ScriptValues.Value

/-!
# Futures

A future is a cell that is delivered to at most once and read at most once; the first read stores
its value, and every later read gives that value again. A cell that no handle leads to any more is
released, together with the handles inside its value.
-/

namespace ScriptValues

inductive Cell where
  /-- The promise is open and nothing was delivered. -/
  | pending
  /-- A value was delivered and not read yet. -/
  | delivered (value : Value)
  /-- The promise was dropped without delivering, and the future was not read yet. -/
  | abandoned
  /-- The future was read; every read gives this value. -/
  | resolved (value : Value)
  /-- No handle to the future is left. -/
  | released
  deriving Inhabited

/-- The value inside a cell. -/
def Cell.content? : Cell → Option Value
  | .delivered v => some v
  | .resolved v => some v
  | _ => none

/-- The futures held by the value inside a cell. -/
def Cell.handles (cell : Cell) : List FutureId :=
  match cell.content? with
  | some v => v.handles
  | none => []

@[simp]
theorem Cell.handles_pending : Cell.pending.handles = [] := rfl

@[simp]
theorem Cell.handles_abandoned : Cell.abandoned.handles = [] := rfl

@[simp]
theorem Cell.handles_released : Cell.released.handles = [] := rfl

@[simp]
theorem Cell.handles_delivered (v : Value) : (Cell.delivered v).handles = v.handles := rfl

@[simp]
theorem Cell.handles_resolved (v : Value) : (Cell.resolved v).handles = v.handles := rfl

/-- The value that an abandoned future resolves to. -/
def abandonedValue : Value := .error "Await: future was abandoned before a value was delivered"

/-- The message of a delivery that nobody can read. -/
def undeliveredMessage : String := "deliver failed: no future is waiting for the value"

/-- The cells of all futures. -/
structure Futures where
  cells : List Cell

namespace Futures

def empty : Futures := ⟨[]⟩

def cell (fs : Futures) (id : FutureId) : Cell := (fs.cells[id.index]?).getD .released

/-- The futures with another state for one of them. -/
def set (fs : Futures) (id : FutureId) (cell : Cell) : Futures := ⟨fs.cells.set id.index cell⟩

def create (fs : Futures) (cell : Cell) : FutureId × Futures :=
  (⟨fs.cells.length⟩, ⟨fs.cells ++ [cell]⟩)

theorem lt_of_cell {fs : Futures} {id : FutureId} (h : fs.cell id ≠ .released) :
    id.index < fs.cells.length := by
  refine Nat.lt_of_not_le fun hle => h ?_
  rw [cell, List.getElem?_eq_none hle, Option.getD_none]

theorem cell_set (fs : Futures) (id other : FutureId) (cell : Cell) :
    (fs.set id cell).cell other =
      if other = id ∧ id.index < fs.cells.length then cell else fs.cell other := by
  unfold Futures.cell set
  rw [List.getElem?_set]
  have hid : other = id ↔ id.index = other.index := by
    cases other; cases id; simp [eq_comm]
  by_cases h : id.index = other.index
  · by_cases hl : id.index < fs.cells.length
    · simp [hid.2 h, hl]
    · simp [hid.2 h, hl]
  · simp [h, mt hid.1 h]

theorem cell_append (fs : Futures) (cells : List Cell) (id : FutureId) :
    cell ⟨fs.cells ++ cells⟩ id =
      if id.index < fs.cells.length then fs.cell id
      else (cells[id.index - fs.cells.length]?).getD .released := by
  unfold cell
  split
  · next h => rw [List.getElem?_append_left h]
  · next h => rw [List.getElem?_append_right (Nat.le_of_not_lt h)]

def isResolved (fs : Futures) (id : FutureId) : Bool :=
  match fs.cell id with
  | .resolved _ => true
  | _ => false

/-- Reads a future and stores what was read. There is no answer while the promise is open. -/
def read? (fs : Futures) (id : FutureId) : Option (Value × Futures) :=
  match fs.cell id with
  | .resolved v => some (v, fs)
  | .delivered v => some (v, fs.set id (.resolved v))
  | .abandoned => some (abandonedValue, fs.set id (.resolved abandonedValue))
  | .pending | .released => none

/-- Reads a future if it holds a value; one that was abandoned holds none until it is read. -/
def tryRead (fs : Futures) (id : FutureId) : Option Value × Futures :=
  match fs.cell id with
  | .resolved v => (some v, fs)
  | .delivered v => (some v, fs.set id (.resolved v))
  | .abandoned | .pending | .released => (none, fs)

/-- Delivers a value, or hands it back when no handle is left to read it. -/
def deliver (fs : Futures) (id : FutureId) (v : Value) : Except Value Futures :=
  match fs.cell id with
  | .pending => .ok (fs.set id (.delivered v))
  | _ => .error v

/-- Drops the promise of a future without delivering. -/
def abandon (fs : Futures) (id : FutureId) : Futures :=
  match fs.cell id with
  | .pending => fs.set id .abandoned
  | _ => fs

/-! ## Release -/

/-- Every handle in the given values and inside the cells. -/
def handlesFrom (roots : List Value) (cells : List Cell) : List FutureId :=
  roots.flatMap Value.handles ++ cells.flatMap Cell.handles

theorem mem_handlesFrom {roots : List Value} {fs : Futures} {id : FutureId} :
    id ∈ handlesFrom roots fs.cells ↔
      (∃ v ∈ roots, id ∈ v.handles) ∨ ∃ holder, id ∈ (fs.cell holder).handles := by
  rw [handlesFrom, List.mem_append, List.mem_flatMap, List.mem_flatMap]
  refine or_congr Iff.rfl ?_
  constructor
  · rintro ⟨cell, hcell, hid⟩
    obtain ⟨i, hi⟩ := List.getElem?_of_mem hcell
    refine ⟨⟨i⟩, ?_⟩
    rwa [Futures.cell, hi]
  · rintro ⟨holder, hid⟩
    cases h : fs.cells[holder.index]? with
    | none => simp [Futures.cell, h] at hid
    | some cell =>
      rw [Futures.cell, h] at hid
      exact ⟨cell, List.mem_of_getElem? h, hid⟩

/-- Releases every cell that no handle leads to. -/
def releaseOnce (roots : List Value) (cells : List Cell) : List Cell :=
  let held := handlesFrom roots cells
  cells.mapIdx fun i cell => if ⟨i⟩ ∈ held then cell else .released

/-- Releases cells until every one left is held; each round that changes anything releases one. -/
def releaseRounds (roots : List Value) : Nat → List Cell → List Cell
  | 0, cells => cells
  | rounds + 1, cells => releaseRounds roots rounds (releaseOnce roots cells)

/-- The futures after everything that the roots do not hold was let go. Cells that hold each other
in a circle keep each other. -/
def release (roots : List Value) (fs : Futures) : Futures :=
  ⟨releaseRounds roots fs.cells.length fs.cells⟩

end Futures

end ScriptValues
