import Mathlib.Data.Fintype.EquivFin
import Mathlib.Logic.Relation
import ScriptValues.Futures

/-!
# Release and reachability

A cell is released as soon as no handle leads to it, and that gives up the handles inside its value.
The rounds of `Futures.release` come to rest, and where no future leads back to itself they leave
exactly the cells that can be reached from the roots.

* `Futures.Reachable`: a handle can be reached through lists, mappings and the contents of futures.
* `Futures.cell_release_of_reachable`: what can be reached stays as it is.
* `Futures.cell_release_of_not_reachable`: without circles, everything else is released.
* `Futures.release_release`: the rounds come to rest, circles or not.
-/

namespace ScriptValues

namespace Futures

open Relation

/-- A handle to the future can be reached from some values, through the elements of lists, the
values of mappings, and the values inside futures, whether read or not. -/
inductive Reachable (fs : Futures) (roots : List Value) : FutureId → Prop
  | root {v : Value} {id : FutureId} : v ∈ roots → id ∈ v.handles → Reachable fs roots id
  | through {holder id : FutureId} :
      Reachable fs roots holder → id ∈ (fs.cell holder).handles → Reachable fs roots id

def Holds (fs : Futures) (holder id : FutureId) : Prop := id ∈ (fs.cell holder).handles

/-- No future leads back to itself. -/
def Untangled (fs : Futures) : Prop := ∀ id, ¬ TransGen fs.Holds id id

/-- The future was made and not released. -/
def Alive (fs : Futures) (id : FutureId) : Prop := fs.cell id ≠ .released

/-- Every handle inside a value leads to a future that is not released. -/
def Keeps (fs : Futures) (v : Value) : Prop := ∀ id ∈ v.handles, fs.Alive id

/-- Every handle inside a future leads to a future that is not released. -/
def Closed (fs : Futures) : Prop := ∀ holder id, fs.Holds holder id → fs.Alive id

/-! ## One round -/

def releaseRound (roots : List Value) (fs : Futures) : Futures := ⟨releaseOnce roots fs.cells⟩

def afterRounds (roots : List Value) : Nat → Futures → Futures
  | 0, fs => fs
  | rounds + 1, fs => afterRounds roots rounds (releaseRound roots fs)

variable {roots : List Value} {fs : Futures} {id : FutureId}

theorem length_releaseRound : (releaseRound roots fs).cells.length = fs.cells.length := by
  simp [releaseRound, releaseOnce]

theorem release_eq_afterRounds (roots : List Value) (fs : Futures) :
    fs.release roots = afterRounds roots fs.cells.length fs := by
  have h : ∀ rounds cells,
      (⟨releaseRounds roots rounds cells⟩ : Futures) = afterRounds roots rounds ⟨cells⟩ := by
    intro rounds
    induction rounds with
    | zero => exact fun _ => rfl
    | succ rounds ih => exact fun cells => ih (releaseOnce roots cells)
  exact h _ _

theorem length_afterRounds {rounds : Nat} :
    (afterRounds roots rounds fs).cells.length = fs.cells.length := by
  induction rounds generalizing fs with
  | zero => rfl
  | succ rounds ih => exact ih.trans length_releaseRound

@[simp]
theorem length_release : (fs.release roots).cells.length = fs.cells.length := by
  rw [release_eq_afterRounds, length_afterRounds]

open Classical in
theorem cell_releaseRound (roots : List Value) (fs : Futures) (id : FutureId) :
    (releaseRound roots fs).cell id =
      if id ∈ handlesFrom roots fs.cells then fs.cell id else .released := by
  unfold releaseRound releaseOnce cell
  rw [List.getElem?_mapIdx]
  cases h : fs.cells[id.index]? with
  | none => simp
  | some c => by_cases hid : id ∈ handlesFrom roots fs.cells <;> simp [hid]

/-- A cell is kept or released. -/
theorem cell_releaseRound_or (roots : List Value) (fs : Futures) (id : FutureId) :
    (releaseRound roots fs).cell id = fs.cell id ∨ (releaseRound roots fs).cell id = .released := by
  rw [cell_releaseRound]
  split
  · exact .inl rfl
  · exact .inr rfl

theorem cell_afterRounds_or (roots : List Value) (rounds : Nat) (fs : Futures) (id : FutureId) :
    (afterRounds roots rounds fs).cell id = fs.cell id ∨
      (afterRounds roots rounds fs).cell id = .released := by
  induction rounds generalizing fs with
  | zero => exact .inl rfl
  | succ rounds ih =>
    rcases ih (releaseRound roots fs) with h | h
    · rw [afterRounds, h]
      exact cell_releaseRound_or roots fs id
    · exact .inr h

theorem cell_release_or (roots : List Value) (fs : Futures) (id : FutureId) :
    (fs.release roots).cell id = fs.cell id ∨ (fs.release roots).cell id = .released := by
  rw [release_eq_afterRounds]
  exact cell_afterRounds_or roots _ fs id

/-- Release takes handles away and adds none. -/
theorem Holds.of_release {holder : FutureId} (h : (fs.release roots).Holds holder id) :
    fs.Holds holder id := by
  unfold Holds at h ⊢
  rcases cell_release_or roots fs holder with hc | hc
  · rwa [hc] at h
  · simp [hc] at h

theorem Untangled.release (h : fs.Untangled) : (fs.release roots).Untangled :=
  fun id hid => h id (TransGen.mono (fun _ _ => Holds.of_release) _ _ hid)

/-! ## What stays -/

theorem Reachable.releaseRound (h : fs.Reachable roots id) :
    (releaseRound roots fs).Reachable roots id ∧ (releaseRound roots fs).cell id = fs.cell id := by
  have held : ∀ {id}, id ∈ handlesFrom roots fs.cells →
      (Futures.releaseRound roots fs).cell id = fs.cell id := by
    intro id hid
    rw [cell_releaseRound, if_pos hid]
  induction h with
  | root hv hid => exact ⟨.root hv hid, held (mem_handlesFrom.2 (.inl ⟨_, hv, hid⟩))⟩
  | through _ hid ih =>
    refine ⟨.through ih.1 ?_, held (mem_handlesFrom.2 (.inr ⟨_, hid⟩))⟩
    rwa [ih.2]

theorem Reachable.afterRounds {rounds : Nat} (h : fs.Reachable roots id) :
    (afterRounds roots rounds fs).cell id = fs.cell id := by
  induction rounds generalizing fs with
  | zero => rfl
  | succ rounds ih => exact (ih h.releaseRound.1).trans h.releaseRound.2

/-- What can be reached stays as it is. -/
theorem cell_release_of_reachable (h : fs.Reachable roots id) :
    (fs.release roots).cell id = fs.cell id := by
  rw [release_eq_afterRounds]
  exact h.afterRounds

/-! ## The rounds come to rest -/

def isKept : Cell → Bool
  | .released => false
  | _ => true

/-- Releasing some cells leaves fewer, unless it releases none. -/
theorem countP_isKept_lt {cells cells' : List Cell}
    (h : List.Forall₂ (fun c c' => c' = c ∨ c' = .released) cells cells') :
    cells' = cells ∨ cells'.countP isKept < cells.countP isKept := by
  induction h with
  | nil => exact .inl rfl
  | @cons c c' rest rest' hc _ ih =>
    rw [List.countP_cons, List.countP_cons]
    rcases hc with rfl | rfl
    · rcases ih with rfl | ih
      · exact .inl rfl
      · exact .inr (by omega)
    · have hle : rest'.countP isKept ≤ rest.countP isKept := by
        rcases ih with rfl | ih <;> omega
      cases c with
      | released => rcases ih with rfl | ih <;> [exact .inl rfl; exact .inr (by omega)]
      | _ => exact .inr (by simp only [isKept]; simp; omega)

theorem forall₂_releaseOnce (roots : List Value) (cells : List Cell) :
    List.Forall₂ (fun c c' => c' = c ∨ c' = .released) cells (releaseOnce roots cells) := by
  unfold releaseOnce
  rw [List.forall₂_iff_get]
  refine ⟨by simp, fun i hi hi' => ?_⟩
  simp only [List.get_eq_getElem, List.getElem_mapIdx]
  split
  · exact .inl rfl
  · exact .inr rfl

theorem releaseRound_afterRounds {rounds : Nat} (h : fs.cells.countP isKept ≤ rounds) :
    releaseRound roots (afterRounds roots rounds fs) = afterRounds roots rounds fs := by
  induction rounds generalizing fs with
  | zero =>
    rcases countP_isKept_lt (forall₂_releaseOnce roots fs.cells) with hs | hs
    · exact congrArg Futures.mk hs
    · omega
  | succ rounds ih =>
    rcases countP_isKept_lt (forall₂_releaseOnce roots fs.cells) with hs | hs
    · have hfix : releaseRound roots fs = fs := congrArg Futures.mk hs
      have hall : ∀ n, afterRounds roots n fs = fs := by
        intro n
        induction n with
        | zero => rfl
        | succ n ihn => rw [afterRounds, hfix, ihn]
      rw [hall, hfix]
    · have hround : (releaseOnce roots fs.cells).countP isKept ≤ rounds := by omega
      exact ih hround

/-- After a release there is nothing left to release. -/
theorem releaseRound_release (roots : List Value) (fs : Futures) :
    releaseRound roots (fs.release roots) = fs.release roots := by
  rw [release_eq_afterRounds]
  exact releaseRound_afterRounds (List.countP_le_length)

theorem release_release (roots : List Value) (fs : Futures) :
    (fs.release roots).release roots = fs.release roots := by
  have hall : ∀ n, afterRounds roots n (fs.release roots) = fs.release roots := by
    intro n
    induction n with
    | zero => rfl
    | succ n ih => rw [afterRounds, releaseRound_release, ih]
  rw [release_eq_afterRounds, hall]

/-! ## What is held is kept -/

theorem handlesFrom_releaseRound
    (h : id ∈ handlesFrom roots (releaseRound roots fs).cells) :
    id ∈ handlesFrom roots fs.cells := by
  rw [mem_handlesFrom] at h ⊢
  refine h.imp (fun hroot => hroot) fun ⟨holder, hh⟩ => ⟨holder, ?_⟩
  rcases cell_releaseRound_or roots fs holder with hc | hc
  · rwa [hc] at hh
  · simp [hc] at hh

theorem handlesFrom_afterRounds {rounds : Nat}
    (h : id ∈ handlesFrom roots (afterRounds roots rounds fs).cells) :
    id ∈ handlesFrom roots fs.cells := by
  induction rounds generalizing fs with
  | zero => exact h
  | succ rounds ih => exact handlesFrom_releaseRound (ih h)

theorem cell_afterRounds_of_held {rounds : Nat}
    (h : id ∈ handlesFrom roots (afterRounds roots rounds fs).cells) :
    (afterRounds roots rounds fs).cell id = fs.cell id := by
  induction rounds generalizing fs with
  | zero => rfl
  | succ rounds ih =>
    have hheld := handlesFrom_afterRounds (show id ∈ handlesFrom roots
      (afterRounds roots (rounds + 1) fs).cells from h)
    rw [afterRounds, ih h, cell_releaseRound, if_pos hheld]

/-- A handle that outlasts the release leads to a cell that was kept as it was. -/
theorem cell_release_of_held (h : id ∈ handlesFrom roots (fs.release roots).cells) :
    (fs.release roots).cell id = fs.cell id := by
  rw [release_eq_afterRounds] at h ⊢
  exact cell_afterRounds_of_held h

theorem Closed.release (h : fs.Closed) : (fs.release roots).Closed := by
  intro holder id hh
  unfold Alive
  rw [cell_release_of_held (mem_handlesFrom.2 (.inr ⟨holder, hh⟩))]
  exact h holder id (Holds.of_release hh)

theorem Keeps.release {v : Value} (h : fs.Keeps v) (hv : v ∈ roots) :
    (fs.release roots).Keeps v := by
  intro id hid
  unfold Alive
  rw [cell_release_of_held (mem_handlesFrom.2 (.inl ⟨v, hv, hid⟩))]
  exact h id hid

/-! ## What goes -/

/-- A cell that outlasts the release is held, and not by a future that is gone. -/
theorem held_of_cell_release (h : (fs.release roots).cell id ≠ .released) :
    (∃ v ∈ roots, id ∈ v.handles) ∨ ∃ holder, (fs.release roots).Holds holder id := by
  have hfix := releaseRound_release roots fs
  rw [← hfix, cell_releaseRound] at h
  split at h
  · next hid => exact mem_handlesFrom.1 hid
  · exact absurd rfl h

/-- Going from a future to its holders comes to an end, since the futures are finitely many. -/
theorem Untangled.wellFounded (h : fs.Untangled) :
    WellFounded fun i j : Fin fs.cells.length => TransGen fs.Holds ⟨i⟩ ⟨j⟩ := by
  have : IsTrans (Fin fs.cells.length) fun i j => TransGen fs.Holds ⟨i⟩ ⟨j⟩ :=
    ⟨fun _ _ _ => TransGen.trans⟩
  have : Std.Irrefl fun i j : Fin fs.cells.length => TransGen fs.Holds ⟨i⟩ ⟨j⟩ :=
    ⟨fun i hi => h ⟨i⟩ hi⟩
  exact Finite.wellFounded_of_trans_of_irrefl _

/-- Without circles, what cannot be reached is released. -/
theorem cell_release_of_not_reachable (ht : fs.Untangled) (h : ¬ fs.Reachable roots id) :
    (fs.release roots).cell id = .released := by
  have main : ∀ i : Fin fs.cells.length, ¬ fs.Reachable roots ⟨i⟩ →
      (fs.release roots).cell ⟨i⟩ = .released := by
    intro i
    induction i using ht.wellFounded.induction with
    | _ i ih =>
      intro hi
      refine Classical.byContradiction fun hkept => ?_
      rcases held_of_cell_release hkept with ⟨v, hv, hid⟩ | ⟨holder, hh⟩
      · exact hi (.root hv hid)
      · -- the holder is kept as well, so by induction it can be reached, and with it this future
        have hne : (fs.release roots).cell holder ≠ .released := by
          intro hc
          simp [Holds, hc] at hh
        have hlt : holder.index < fs.cells.length := by
          have := lt_of_cell hne
          rwa [length_release] at this
        have hholder : ¬ fs.Reachable roots holder := fun hr =>
          hi (.through hr (Holds.of_release hh))
        exact hne (ih ⟨holder.index, hlt⟩ (.single (Holds.of_release hh)) hholder)
  by_cases hlt : id.index < fs.cells.length
  · exact main ⟨id.index, hlt⟩ h
  · rw [cell, List.getElem?_eq_none (by simpa using Nat.le_of_not_lt hlt), Option.getD_none]

end Futures

end ScriptValues
