import ScriptValues.Proofs.Lifecycle
import ScriptValues.Proofs.Release

/-!
# Changing one future

Reads, deliveries and dropped promises change the cell of one future that is not released. A read
leaves the handles inside the futures as they are; only a delivery adds some, and it closes a circle
exactly if the value leads back to the future.

* `Futures.read_eq_some`, `Futures.tryRead_eq`: reads, by what the cell answers.
* `Futures.Untangled.deliver`: a delivery of a value that does not lead back makes no circle.
-/

namespace ScriptValues

namespace Futures

open Relation

variable {fs fs' : Futures} {id other holder : FutureId} {c : Cell} {v : Value}

theorem getElem?_eq_cell (h : id.index < fs.cells.length) :
    fs.cells[id.index]? = some (fs.cell id) := by
  rw [cell, List.getElem?_eq_getElem h, Option.getD_some]

theorem getElem?_eq_none (h : fs.cells.length ≤ id.index) : fs.cells[id.index]? = none :=
  List.getElem?_eq_none h

theorem cell_of_getElem? (h : fs.cells[id.index]? = some c) : fs.cell id = c := by
  rw [cell, h, Option.getD_some]

theorem getElem?_set (h : fs.Alive id) :
    (fs.set id c).cells[other.index]? =
      if other = id then some c else fs.cells[other.index]? := by
  have hlt := lt_of_cell h
  unfold set
  rw [List.getElem?_set]
  by_cases heq : other = id
  · rw [if_pos heq, if_pos (by rw [heq]), if_pos hlt]
  · rw [if_neg heq, if_neg]
    intro hindex
    apply heq
    cases other
    cases id
    simp_all

theorem cell_set_of_alive (h : fs.Alive id) :
    (fs.set id c).cell other = if other = id then c else fs.cell other := by
  rw [cell_set]
  have hlt := lt_of_cell h
  simp [hlt]

theorem set_cell_eq (h : fs.cell id = c) (halive : fs.Alive id) : fs.set id c = fs := by
  have hlt := lt_of_cell halive
  have hget := getElem?_eq_cell hlt
  rw [h, List.getElem?_eq_getElem hlt] at hget
  unfold set
  rw [← Option.some.inj hget, List.set_getElem_self]

/-- Changing a cell releases nothing and brings nothing back. -/
theorem alive_set (h : fs.Alive id) (hc : c ≠ .released) :
    (fs.set id c).Alive other ↔ fs.Alive other := by
  unfold Alive
  rw [cell_set_of_alive h]
  split
  · next heq => exact ⟨fun _ => heq ▸ h, fun _ => hc⟩
  · exact Iff.rfl

theorem holds_set (h : fs.Alive id) :
    (fs.set id c).Holds holder other ↔
      if holder = id then other ∈ c.handles else fs.Holds holder other := by
  unfold Holds
  rw [cell_set_of_alive h]
  split <;> exact Iff.rfl

theorem Closed.set (hcl : fs.Closed) (h : fs.Alive id) (hc : c ≠ .released)
    (hk : ∀ other ∈ c.handles, fs.Alive other) : (fs.set id c).Closed := by
  intro holder other hh
  rw [alive_set h hc]
  rw [holds_set h] at hh
  split at hh
  · exact hk other hh
  · exact hcl holder other hh

theorem Keeps.set (hv : fs.Keeps v) (h : fs.Alive id) (hc : c ≠ .released) :
    (fs.set id c).Keeps v :=
  fun other ho => (alive_set h hc).2 (hv other ho)

theorem Untangled.mono (h : ∀ a b, fs'.Holds a b → fs.Holds a b) (ht : fs.Untangled) :
    fs'.Untangled :=
  fun a ha => ht a (TransGen.mono h _ _ ha)

/-! ## Reads -/

/-- A read that changes the cell keeps the handles inside it. -/
theorem handles_resolved_of_answer (h : (fs.cell id).answer? = some v) :
    (Cell.resolved v).handles = (fs.cell id).handles := by
  cases hc : fs.cell id with
  | delivered w =>
    rw [hc] at h
    rw [← Option.some.inj h]
    rfl
  | resolved w =>
    rw [hc] at h
    rw [← Option.some.inj h]
  | abandoned =>
    rw [hc] at h
    rw [← Option.some.inj h]
    rfl
  | _ =>
    rw [hc] at h
    cases h

theorem alive_of_answer (h : (fs.cell id).answer? = some v) : fs.Alive id :=
  Stage.ne_released_of_answer h

/-- A read answers what the cell answers, and puts it into the cache. -/
theorem read_eq_some :
    fs.read? id = some (v, fs') ↔
      (fs.cell id).answer? = some v ∧ fs' = fs.set id (.resolved v) := by
  unfold read?
  cases hc : fs.cell id with
  | pending => simp [Cell.answer?]
  | released => simp [Cell.answer?]
  | delivered w =>
    simp only [Cell.answer?, Option.some.injEq, Prod.mk.injEq]
    constructor
    · rintro ⟨rfl, rfl⟩
      exact ⟨rfl, rfl⟩
    · rintro ⟨rfl, rfl⟩
      exact ⟨rfl, rfl⟩
  | abandoned =>
    simp only [Cell.answer?, Option.some.injEq, Prod.mk.injEq]
    constructor
    · rintro ⟨rfl, rfl⟩
      exact ⟨rfl, rfl⟩
    · rintro ⟨rfl, rfl⟩
      exact ⟨rfl, rfl⟩
  | resolved w =>
    have hset : fs.set id (.resolved w) = fs := set_cell_eq hc (by rw [Alive, hc]; simp)
    simp only [Cell.answer?, Option.some.injEq, Prod.mk.injEq]
    constructor
    · rintro ⟨rfl, rfl⟩
      exact ⟨rfl, hset.symm⟩
    · rintro ⟨rfl, rfl⟩
      exact ⟨rfl, hset.symm⟩

theorem read_eq_none (h : (fs.cell id).answer? = none) : fs.read? id = none := by
  cases hr : fs.read? id with
  | none => rfl
  | some answer =>
    rw [(read_eq_some.1 hr).1] at h
    cases h

/-- A try answers what the cell holds, and puts it into the cache. -/
theorem tryRead_eq (fs : Futures) (id : FutureId) :
    fs.tryRead id = match (fs.cell id).content? with
      | some v => (some v, fs.set id (.resolved v))
      | none => (none, fs) := by
  unfold tryRead
  cases hc : fs.cell id with
  | resolved w =>
    have hset : fs.set id (.resolved w) = fs := set_cell_eq hc (by rw [Alive, hc]; simp)
    simp only [Cell.content?, hset]
  | _ => rfl

theorem isResolved_eq (fs : Futures) (id : FutureId) :
    fs.isResolved id = (fs.cell id).isResolved := by
  unfold isResolved Cell.isResolved
  cases fs.cell id <;> rfl

/-! ## Deliveries -/

theorem deliver_of_pending (h : fs.cell id = .pending) (v : Value) :
    fs.deliver id v = .ok (fs.set id (.delivered v)) := by
  rw [deliver, h]

theorem deliver_of_released (h : fs.cell id = .released) (v : Value) :
    fs.deliver id v = .error v := by
  rw [deliver, h]

/-- Only a future that waits for its promise changes when one is dropped. -/
theorem cell_abandon_of_ne_pending (h : fs.cell id ≠ .pending) (other : FutureId) :
    (fs.abandon other).cell id = fs.cell id := by
  unfold abandon
  split
  · next hc =>
    have hne : id ≠ other := by
      rintro rfl
      exact h hc
    rw [cell_set, if_neg fun heq => hne heq.1]
  · rfl

/-- Only a future that waits for its promise changes in a delivery. -/
theorem cell_deliver_of_ne_pending {other : FutureId} (h : fs.cell id ≠ .pending)
    (hd : fs.deliver other v = .ok fs') : fs'.cell id = fs.cell id := by
  unfold deliver at hd
  split at hd
  · next hc =>
    have hne : id ≠ other := by
      rintro rfl
      exact h hc
    rw [← Except.ok.inj hd, cell_set, if_neg fun heq => hne heq.1]
  · cases hd

/-- On a way that uses the delivered value, everything from then on is reached from the value. -/
theorem transGen_deliver (h : fs.Alive id) {a b : FutureId}
    (hab : TransGen (fs.set id (.delivered v)).Holds a b) :
    TransGen fs.Holds a b ∨ ReflTransGen (fs.set id (.delivered v)).Holds a id ∧
      (fs.set id (.delivered v)).Reachable [v] b := by
  have hstep : ∀ {a b}, (fs.set id (.delivered v)).Holds a b →
      fs.Holds a b ∨ a = id ∧ b ∈ v.handles := by
    intro a b hh
    rw [holds_set h] at hh
    split at hh
    · next heq => exact .inr ⟨heq, hh⟩
    · exact .inl hh
  induction hab with
  | single hab =>
    rcases hstep hab with hab | ⟨rfl, hb⟩
    · exact .inl (.single hab)
    · exact .inr ⟨.refl, .root (List.mem_singleton.2 rfl) hb⟩
  | @tail b b' hab hbb ih =>
    rcases ih with ih | ⟨ha, hb⟩
    · rcases hstep hbb with hbb | ⟨rfl, hb⟩
      · exact .inl (ih.tail hbb)
      · exact .inr ⟨hab.to_reflTransGen, .root (List.mem_singleton.2 rfl) hb⟩
    · exact .inr ⟨ha, .through hb hbb⟩

theorem Reachable.trans_holds {roots : List Value} {a b : FutureId} (h : fs.Reachable roots a)
    (hab : ReflTransGen fs.Holds a b) : fs.Reachable roots b := by
  induction hab with
  | refl => exact h
  | tail _ hbc ih => exact .through ih hbc

/-- A delivery of a value that does not lead back to the future makes no circle. -/
theorem Untangled.deliver (ht : fs.Untangled) (h : fs.Alive id)
    (hv : ¬ (fs.set id (.delivered v)).Reachable [v] id) :
    (fs.set id (.delivered v)).Untangled := by
  intro a ha
  rcases transGen_deliver h ha with ha | ⟨hto, hfrom⟩
  · exact ht a ha
  · exact hv (hfrom.trans_holds hto)

theorem Reachable.mono {roots : List Value} (h : ∀ a b, fs.Holds a b → fs'.Holds a b)
    (hr : fs.Reachable roots id) : fs'.Reachable roots id := by
  induction hr with
  | root hv hid => exact .root hv hid
  | through _ hid ih => exact .through ih (h _ _ hid)

end Futures

end ScriptValues
