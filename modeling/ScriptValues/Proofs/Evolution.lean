import ScriptValues.Proofs.Calls
import ScriptValues.Proofs.Making
import ScriptValues.Proofs.OneCell

/-!
# How the state of a script evolves

A state is sound if every handle leads to a future that is not released and every promise is the
only one of a future that waits for it. Each part of a step leads from a sound state to a sound one,
and takes every future along the stages of its life.

* `Script.State.Sound`: what holds between the steps.
* `Script.Evolves`: a part of a step, with what happens to each future in it.
* `Script.Evolves.trans`: the parts of a step, one after another.
-/

namespace ScriptValues

/-- What has happened to a future that was just made. -/
def Cell.origin : Cell → List Happening
  | .pending => [.deferred]
  | .delivered v => [.deferred, .delivered v]
  | .abandoned => [.deferred, .abandoned]
  | .resolved v => [.madeReady v]
  | .released => []

/-- What has happened to a future since some others were there, if only new ones were made. -/
def Futures.born (before after : Futures) (id : FutureId) : List Happening :=
  if id.index < before.cells.length then [] else (after.cell id).origin

theorem Futures.born_self (fs : Futures) (id : FutureId) : fs.born fs id = [] := by
  unfold born
  split
  · rfl
  · next h => rw [cell, List.getElem?_eq_none (Nat.le_of_not_lt h), Option.getD_none, Cell.origin]

/-- Something that happens to one future, if any, as what happens to each. -/
def Happening.onlyAt (e : Happening) (place? : Option FutureId) (id : FutureId) : List Happening :=
  if place? = some id then [e] else []

/-- A cell that an expression makes has the happenings behind it that lead there. -/
theorem Cell.Made.steps {c : Cell} (h : c.Made) :
    Stage.Steps ⟨none, false⟩ c.origin ⟨some c, false⟩ := by
  cases h with
  | abandoned => exact .next (.single .deferred) .abandoned
  | delivered v => exact .next (.single .deferred) (.delivered v)
  | resolved v => exact .single (.madeReady v)

theorem Futures.Makes.made {fs fs' : Futures} {id : FutureId} (h : fs.Makes fs')
    (hlo : fs.cells.length ≤ id.index) (hhi : id.index < fs'.cells.length) :
    (fs'.cell id).Made := by
  induction h with
  | refl => omega
  | @create fs' c _ hmade _ ih =>
    rw [length_create] at hhi
    rw [cell_create]
    split
    · exact hmade
    · exact ih (by omega)

namespace Script

/-! ## Sound states -/

namespace State

/-- A script begins with no variables, no promises and no futures. -/
def initial (world : World) : State := ⟨{ world with futures := .empty }, [], []⟩

def withFutures (s : State) (fs : Futures) : State :=
  { s with world := { s.world with futures := fs } }

/-- The state after a promise was used up. -/
def without (s : State) (promise : String) : State :=
  { s with promises := Entries.erase promise s.promises }

/-- Some promise of the future is left. -/
def Promised (s : State) (id : FutureId) : Prop := id ∈ s.promises.map Prod.snd

instance (s : State) (id : FutureId) : Decidable (s.Promised id) :=
  inferInstanceAs (Decidable (id ∈ s.promises.map Prod.snd))

def stage (s : State) (id : FutureId) : Stage :=
  ⟨s.world.futures.cells[id.index]?, decide (s.Promised id)⟩

/-- Handles lead to futures that are not released, and every promise is the only one of a future
that still waits for it. -/
structure Sound (s : State) : Prop where
  held : ∀ b ∈ s.bindings, s.world.futures.Keeps b.2
  closed : s.world.futures.Closed
  sorted : Entries.Sorted s.promises
  distinct : ∀ p ∈ s.promises, ∀ q ∈ s.promises, p.2 = q.2 → p = q
  waiting : ∀ p ∈ s.promises, s.world.futures.cells[p.2.index]? = some .pending ∨
    s.world.futures.cells[p.2.index]? = some .released

variable {s : State} {id other : FutureId} {name : String} {v : Value}

theorem sound_initial (world : World) : (initial world).Sound where
  held := by simp [initial]
  closed := by
    intro holder id hh
    simp [Futures.Holds, initial, Futures.empty, Futures.cell] at hh
  sorted := List.Pairwise.nil
  distinct := by simp [initial]
  waiting := by simp [initial]

theorem stage_initial (world : World) (id : FutureId) :
    (initial world).stage id = ⟨none, false⟩ := by
  simp [stage, initial, Futures.empty, Promised]

theorem promised_iff : s.Promised id ↔ ∃ name, (name, id) ∈ s.promises := by
  unfold Promised
  rw [List.mem_map]
  constructor
  · rintro ⟨⟨name, _⟩, hp, rfl⟩
    exact ⟨name, hp⟩
  · rintro ⟨name, hp⟩
    exact ⟨(name, id), hp, rfl⟩

theorem Sound.lookup (hs : s.Sound) (h : Entries.lookup? name s.bindings = some v) :
    s.world.futures.Keeps v :=
  hs.held _ (Entries.mem_of_lookup h)

/-- The future of a promise was made. -/
theorem Sound.lt_of_promised (hs : s.Sound) (h : s.Promised id) :
    id.index < s.world.futures.cells.length := by
  obtain ⟨name, hp⟩ := promised_iff.1 h
  have hget : s.world.futures.cells[id.index]? ≠ none := by
    rcases hs.waiting _ hp with hc | hc <;> simp [hc]
  exact Nat.lt_of_not_le fun hle => hget (Futures.getElem?_eq_none hle)

/-- Using a promise up takes it from exactly one future. -/
theorem Sound.promised_without (hs : s.Sound) (h : Entries.lookup? name s.promises = some id) :
    (s.without name).Promised other ↔ s.Promised other ∧ other ≠ id := by
  have hid := Entries.mem_of_lookup h
  rw [promised_iff, promised_iff]
  constructor
  · rintro ⟨k, hk⟩
    obtain ⟨hk, hne⟩ := Entries.mem_erase.1 hk
    refine ⟨⟨k, hk⟩, ?_⟩
    rintro rfl
    exact hne (Prod.mk.inj (hs.distinct _ hk _ hid rfl)).1
  · rintro ⟨⟨k, hk⟩, hne⟩
    refine ⟨k, Entries.mem_erase.2 ⟨hk, ?_⟩⟩
    rintro rfl
    rw [hs.sorted.lookup_of_mem hk] at h
    exact hne (Option.some.inj h)

theorem without_of_lookup_eq_none (h : Entries.lookup? name s.promises = none) :
    s.without name = s := by
  rw [without, Entries.erase_of_lookup_eq_none h]

end State

/-! ## Parts of a step -/

/-- A part of a step that keeps the state sound and takes each future along its life. Handles inside
futures are only added, and a circle comes about only if a delivered value leads back. -/
structure Evolves (s : State) (log : FutureId → List Happening) (s' : State) : Prop where
  sound : s'.Sound
  steps (id : FutureId) : Stage.Steps (s.stage id) (log id) (s'.stage id)
  holds {holder id : FutureId} :
    s.world.futures.Holds holder id → s'.world.futures.Holds holder id
  untangled : s.world.futures.Untangled →
    (∀ id v, .delivered v ∈ log id → ¬ s'.world.futures.Reachable [v] id) →
      s'.world.futures.Untangled

variable {s s' s'' : State} {log log' : FutureId → List Happening} {id : FutureId} {name : String}
  {v : Value} {fs : Futures}

theorem Evolves.trans (h : Evolves s log s') (h' : Evolves s' log' s'') :
    Evolves s (fun id => log id ++ log' id) s'' where
  sound := h'.sound
  steps id := (h.steps id).trans (h'.steps id)
  holds hh := h'.holds (h.holds hh)
  untangled ht hlog := by
    have ht' : s'.world.futures.Untangled := by
      refine h.untangled ht fun id v hv hr => hlog id v (List.mem_append_left _ hv) ?_
      exact hr.mono fun _ _ => h'.holds
    exact h'.untangled ht' fun id v hv => hlog id v (List.mem_append_right _ hv)

theorem Evolves.congr (h : Evolves s log s') (heq : ∀ id, log id = log' id) :
    Evolves s log' s' := by
  obtain rfl : log = log' := funext heq
  exact h

/-- Changing variables happens to no future, as long as they hold no released one. -/
theorem State.Sound.evolves_of_bindings (hs : s.Sound)
    (hf : s'.world.futures = s.world.futures) (hp : s'.promises = s.promises)
    (hb : ∀ b ∈ s'.bindings, b ∈ s.bindings ∨ s.world.futures.Keeps b.2) :
    Evolves s (fun _ => []) s' where
  sound := by
    refine ⟨fun b hmem => ?_, ?_, ?_, ?_, ?_⟩
    · rw [hf]
      exact (hb b hmem).elim (hs.held b) fun hk => hk
    · rw [hf]
      exact hs.closed
    · rw [hp]
      exact hs.sorted
    · rw [hp]
      exact hs.distinct
    · rw [hp, hf]
      exact hs.waiting
  steps id := by
    have hpromised : s'.Promised id ↔ s.Promised id := by rw [State.Promised, hp, State.Promised]
    rw [State.stage, State.stage, hf, decide_eq_decide.2 hpromised]
    exact .refl
  holds hh := by rwa [hf]
  untangled ht _ := by rwa [hf]

/-- Making futures. -/
theorem State.Sound.evolves_makes (hs : s.Sound) (hm : s.world.futures.Makes fs) :
    Evolves s (s.world.futures.born fs) (s.withFutures fs) where
  sound := by
    refine ⟨fun b hb => hm.keeps (hs.held b hb), hm.closed hs.closed, hs.sorted, hs.distinct, ?_⟩
    intro p hp
    have hlt := hs.lt_of_promised (State.promised_iff.2 ⟨p.1, hp⟩)
    have hle := hm.length_le
    show fs.cells[p.2.index]? = _ ∨ fs.cells[p.2.index]? = _
    rw [Futures.getElem?_eq_cell (by omega), hm.cell_eq hlt, ← Futures.getElem?_eq_cell hlt]
    exact hs.waiting p hp
  steps id := by
    have hle := hm.length_le
    unfold State.stage Futures.born
    show Stage.Steps _ _ ⟨fs.cells[id.index]?, decide (s.Promised id)⟩
    by_cases hlt : id.index < s.world.futures.cells.length
    · rw [if_pos hlt, Futures.getElem?_eq_cell hlt, Futures.getElem?_eq_cell (by omega),
        hm.cell_eq hlt]
      exact .refl
    · have hnot : ¬ s.Promised id := fun hp => hlt (hs.lt_of_promised hp)
      rw [if_neg hlt, decide_eq_false hnot, Futures.getElem?_eq_none (by omega)]
      by_cases hlt' : id.index < fs.cells.length
      · rw [Futures.getElem?_eq_cell hlt']
        exact (hm.made (by omega) hlt').steps
      · have hnone := Futures.getElem?_eq_none (Nat.le_of_not_lt hlt')
        rw [hnone, Futures.cell, hnone]
        exact .refl
  holds hh := hm.holds hh
  untangled ht _ := hm.untangled hs.closed ht

/-! ## Changing one future -/

theorem State.stage_eq (h : s.world.futures.Alive id) :
    s.stage id = ⟨some (s.world.futures.cell id), decide (s.Promised id)⟩ := by
  rw [State.stage, Futures.getElem?_eq_cell (Futures.lt_of_cell h)]

/-- A question or a read that changes nothing. -/
theorem State.Sound.evolves_idle (hs : s.Sound) {e : Happening} (h : s.world.futures.Alive id)
    (hn : ∀ p, Stage.Next ⟨some (s.world.futures.cell id), p⟩ e
      ⟨some (s.world.futures.cell id), p⟩) :
    Evolves s (e.onlyAt (some id)) s where
  sound := hs
  steps other := by
    unfold Happening.onlyAt
    split
    · next heq =>
      obtain rfl := Option.some.inj heq
      rw [State.stage_eq h]
      exact .single (hn _)
    · exact .refl
  holds hh := hh
  untangled ht _ := ht

/-- A read that answers puts the answer into the cache. -/
theorem State.Sound.evolves_read (hs : s.Sound) {e : Happening}
    (ha : (s.world.futures.cell id).answer? = some v)
    (hn : ∀ p, Stage.Next ⟨some (s.world.futures.cell id), p⟩ e ⟨some (.resolved v), p⟩) :
    Evolves s (e.onlyAt (some id)) (s.withFutures (s.world.futures.set id (.resolved v))) := by
  have halive := Futures.alive_of_answer ha
  have hhandles := Futures.handles_resolved_of_answer ha
  have hholds : ∀ a b, (s.world.futures.set id (.resolved v)).Holds a b ↔
      s.world.futures.Holds a b := by
    intro a b
    rw [Futures.holds_set halive]
    split
    · next heq => rw [heq, Futures.Holds, hhandles]
    · exact Iff.rfl
  have hnot : ¬ s.Promised id := by
    intro hp
    obtain ⟨name, hp⟩ := State.promised_iff.1 hp
    rcases hs.waiting _ hp with hc | hc
    · rw [Futures.cell_of_getElem? hc] at ha
      cases ha
    · exact halive (Futures.cell_of_getElem? hc)
  refine ⟨⟨fun b hb => (hs.held b hb).set halive (by simp), ?_, hs.sorted, hs.distinct, ?_⟩,
    fun other => ?_, fun hh => (hholds _ _).2 hh, fun ht _ => ht.mono fun a b => (hholds a b).1⟩
  · intro a b hh
    exact (Futures.alive_set halive (by simp)).2 (hs.closed a b ((hholds a b).1 hh))
  · intro p hp
    have hne : p.2 ≠ id := by
      rintro rfl
      exact hnot (State.promised_iff.2 ⟨p.1, hp⟩)
    show (s.world.futures.set id (.resolved v)).cells[p.2.index]? = _ ∨
      (s.world.futures.set id (.resolved v)).cells[p.2.index]? = _
    rw [Futures.getElem?_set halive, if_neg hne]
    exact hs.waiting p hp
  · unfold Happening.onlyAt State.stage
    show Stage.Steps _ _
      ⟨(s.world.futures.set id (.resolved v)).cells[other.index]?, decide (s.Promised other)⟩
    rw [Futures.getElem?_set halive]
    by_cases heq : other = id
    · rw [heq, if_pos rfl, if_pos rfl, Futures.getElem?_eq_cell (Futures.lt_of_cell halive)]
      exact .single (hn _)
    · rw [if_neg heq, if_neg fun h => heq (Option.some.inj h).symm]
      exact .refl

/-! ## Using a promise up -/

/-- The future of a promise waits for it or is released. -/
theorem State.Sound.cell_of_promise (hs : s.Sound)
    (h : Entries.lookup? name s.promises = some id) :
    s.world.futures.cell id = .pending ∨ s.world.futures.cell id = .released :=
  (hs.waiting _ (Entries.mem_of_lookup h)).imp Futures.cell_of_getElem? Futures.cell_of_getElem?

theorem State.Sound.stage_of_promise (hs : s.Sound)
    (h : Entries.lookup? name s.promises = some id) :
    s.stage id = ⟨some (s.world.futures.cell id), true⟩ := by
  have hp : s.Promised id := State.promised_iff.2 ⟨name, Entries.mem_of_lookup h⟩
  rw [State.stage, Futures.getElem?_eq_cell (hs.lt_of_promised hp), decide_eq_true hp]

/-- Using a promise up leaves the other promises. -/
theorem State.Sound.without (hs : s.Sound) : (s.without name).Sound where
  held := hs.held
  closed := hs.closed
  sorted := hs.sorted.erase
  distinct p hp q hq := hs.distinct p (Entries.mem_erase.1 hp).1 q (Entries.mem_erase.1 hq).1
  waiting p hp := hs.waiting p (Entries.mem_erase.1 hp).1

/-- A promise of a future that nobody can see is used up. -/
theorem State.Sound.evolves_unseen (hs : s.Sound) {e : Happening}
    (h : Entries.lookup? name s.promises = some id) (hc : s.world.futures.cell id = .released)
    (hn : Stage.Next ⟨some .released, true⟩ e ⟨some .released, false⟩) :
    Evolves s (e.onlyAt (some id)) (s.without name) where
  sound := hs.without
  steps other := by
    unfold Happening.onlyAt
    by_cases heq : other = id
    · have hnot : ¬ (s.without name).Promised id := fun hp => ((hs.promised_without h).1 hp).2 rfl
      rw [heq, if_pos rfl, hs.stage_of_promise h, State.stage, decide_eq_false hnot]
      show Stage.Steps _ _ ⟨s.world.futures.cells[id.index]?, false⟩
      have hp : s.Promised id := State.promised_iff.2 ⟨name, Entries.mem_of_lookup h⟩
      rw [Futures.getElem?_eq_cell (hs.lt_of_promised hp), hc]
      exact .single hn
    · have hsame : (s.without name).Promised other ↔ s.Promised other := by
        rw [hs.promised_without h]
        exact and_iff_left heq
      rw [if_neg fun h => heq (Option.some.inj h).symm, State.stage, State.stage,
        decide_eq_decide.2 hsame]
      exact .refl
  holds hh := hh
  untangled ht _ := ht

/-- A promise of a future that waits for it is used up. -/
theorem State.Sound.evolves_settle (hs : s.Sound) {e : Happening} {c : Cell}
    (h : Entries.lookup? name s.promises = some id) (hc : s.world.futures.cell id = .pending)
    (hn : Stage.Next ⟨some .pending, true⟩ e ⟨some c, false⟩) (hne : c ≠ .released)
    (hk : ∀ other ∈ c.handles, s.world.futures.Alive other)
    (ht : s.world.futures.Untangled →
      (∀ v, e = .delivered v → ¬ (s.world.futures.set id c).Reachable [v] id) →
        (s.world.futures.set id c).Untangled) :
    Evolves s (e.onlyAt (some id)) ((s.without name).withFutures (s.world.futures.set id c)) := by
  have halive : s.world.futures.Alive id := by
    rw [Futures.Alive, hc]
    simp
  have hother : ∀ p ∈ (s.without name).promises, p.2 ≠ id := fun p hp =>
    ((hs.promised_without h).1 (State.promised_iff.2 ⟨p.1, hp⟩)).2
  refine ⟨⟨fun b hb => (hs.held b hb).set halive hne, hs.closed.set halive hne hk,
    hs.without.sorted, hs.without.distinct, ?_⟩, fun other => ?_, ?_, ?_⟩
  · intro p hp
    show (s.world.futures.set id c).cells[p.2.index]? = _ ∨
      (s.world.futures.set id c).cells[p.2.index]? = _
    rw [Futures.getElem?_set halive, if_neg (hother p hp)]
    exact hs.without.waiting p hp
  · unfold Happening.onlyAt
    show Stage.Steps _ _ ⟨(s.world.futures.set id c).cells[other.index]?,
      decide ((s.without name).Promised other)⟩
    rw [Futures.getElem?_set halive]
    by_cases heq : other = id
    · have hnot : ¬ (s.without name).Promised id := fun hp => ((hs.promised_without h).1 hp).2 rfl
      rw [heq, if_pos rfl, if_pos rfl, hs.stage_of_promise h, hc, decide_eq_false hnot]
      exact .single hn
    · have hsame : (s.without name).Promised other ↔ s.Promised other := by
        rw [hs.promised_without h]
        exact and_iff_left heq
      rw [if_neg heq, if_neg fun h => heq (Option.some.inj h).symm, decide_eq_decide.2 hsame]
      exact .refl
  · intro holder other hh
    show (s.world.futures.set id c).Holds holder other
    rw [Futures.holds_set halive]
    split
    · next heq =>
      rw [heq, Futures.Holds, hc] at hh
      cases hh
    · exact hh
  · intro hu hlog
    refine ht hu fun v hv => hlog id v ?_
    simp [Happening.onlyAt, hv]

/-- A delivery that somebody can read. -/
theorem State.Sound.evolves_deliver (hs : s.Sound)
    (h : Entries.lookup? name s.promises = some id) (hv : s.world.futures.Keeps v)
    (hd : s.world.futures.deliver id v = .ok fs) :
    Evolves s ((Happening.delivered v).onlyAt (some id)) ((s.without name).withFutures fs) := by
  rcases hs.cell_of_promise h with hc | hc
  · rw [Futures.deliver_of_pending hc] at hd
    obtain rfl := Except.ok.inj hd
    have halive : s.world.futures.Alive id := by
      rw [Futures.Alive, hc]
      simp
    refine hs.evolves_settle h hc (.delivered v) (by simp) hv fun ht hnot => ?_
    exact ht.deliver halive (hnot v rfl)
  · rw [Futures.deliver_of_released hc] at hd
    cases hd

/-- A delivery that nobody can read hands the value back. -/
theorem State.Sound.evolves_refused (hs : s.Sound) {w : Value}
    (h : Entries.lookup? name s.promises = some id)
    (hd : s.world.futures.deliver id v = .error w) :
    w = v ∧ Evolves s ((Happening.refused w).onlyAt (some id)) (s.without name) := by
  rcases hs.cell_of_promise h with hc | hc
  · rw [Futures.deliver_of_pending hc] at hd
    cases hd
  · rw [Futures.deliver_of_released hc] at hd
    exact ⟨(Except.error.inj hd).symm, hs.evolves_unseen h hc (.refused w)⟩

/-- A promise that is dropped without delivering. -/
theorem State.Sound.evolves_abandon (hs : s.Sound)
    (h : Entries.lookup? name s.promises = some id) :
    Evolves s (Happening.abandoned.onlyAt (some id))
      ((s.without name).withFutures (s.world.futures.abandon id)) := by
  rcases hs.cell_of_promise h with hc | hc
  · rw [Futures.abandon, hc]
    refine hs.evolves_settle h hc .abandoned (by simp) (by simp) fun ht _ => ?_
    refine ht.mono fun a b hh => ?_
    rw [Futures.holds_set (by rw [Futures.Alive, hc]; simp)] at hh
    split at hh
    · cases hh
    · exact hh
  · rw [Futures.abandon, hc]
    exact hs.evolves_unseen h hc .abandonedUnseen

/-! ## A new promise -/

/-- The state with a new promise, whose future is put into a variable of the same name. -/
def State.promise (s : State) (name : String) : State where
  world := { s.world with futures := (s.world.futures.create .pending).2 }
  bindings := Entries.insert name (.future (s.world.futures.create .pending).1) s.bindings
  promises := Entries.insert name (s.world.futures.create .pending).1 s.promises

theorem State.promised_promise (h : Entries.lookup? name s.promises = none) :
    (s.promise name).Promised id ↔
      id = (s.world.futures.create .pending).1 ∨ s.Promised id := by
  rw [State.promised_iff, State.promised_iff]
  constructor
  · rintro ⟨k, hk⟩
    rcases Entries.mem_insert hk with heq | hk
    · exact .inl (Prod.mk.inj heq).2
    · exact .inr ⟨k, hk⟩
  · rintro (rfl | ⟨k, hk⟩)
    · exact ⟨name, Entries.mem_insert_self⟩
    · exact ⟨k, Entries.mem_insert_of_mem hk (Entries.ne_of_lookup_eq_none h hk)⟩

theorem Futures.getElem?_create (fs : Futures) (c : Cell) (id : FutureId) :
    (fs.create c).2.cells[id.index]? =
      if id = (fs.create c).1 then some c else fs.cells[id.index]? := by
  show (fs.cells ++ [c])[id.index]? = _
  by_cases heq : id = (fs.create c).1
  · subst heq
    rw [if_pos rfl]
    exact List.getElem?_concat_length
  · rw [if_neg heq]
    have hne : id.index ≠ fs.cells.length := fun h => heq (by cases id; exact congrArg _ h)
    by_cases hlt : id.index < fs.cells.length
    · exact List.getElem?_append_left hlt
    · rw [List.getElem?_eq_none (by rw [List.length_append, List.length_singleton]; omega),
        List.getElem?_eq_none (by omega)]

/-- A new promise, when no other of this name is left. -/
theorem State.Sound.evolves_promise (hs : s.Sound) (h : Entries.lookup? name s.promises = none) :
    Evolves s (s.world.futures.born (s.promise name).world.futures) (s.promise name) := by
  have hnew : ∀ id, s.Promised id → id ≠ (s.world.futures.create .pending).1 := by
    rintro id hp rfl
    exact Nat.lt_irrefl _ (hs.lt_of_promised hp)
  have hkeys : ∀ p ∈ (s.promise name).promises,
      p = (name, (s.world.futures.create .pending).1) ∨ p ∈ s.promises :=
    fun p hp => Entries.mem_insert hp
  refine ⟨⟨?_, hs.closed.create (by simp), hs.sorted.insert, ?_, ?_⟩, fun id => ?_,
    fun hh => hh.create, fun ht _ => ht.create hs.closed (by simp)⟩
  · intro b hb id hid
    rcases Entries.mem_insert hb with rfl | hb
    · rw [Value.mem_handles_future.1 hid]
      show (s.world.futures.create .pending).2.cell _ ≠ _
      rw [Futures.cell_create_self]
      simp
    · exact (hs.held b hb id hid).create
  · intro p hp q hq heq
    rcases hkeys p hp with rfl | hp <;> rcases hkeys q hq with rfl | hq
    · rfl
    · exact absurd heq.symm (hnew _ (promised_iff.2 ⟨q.1, hq⟩))
    · exact absurd heq (hnew _ (promised_iff.2 ⟨p.1, hp⟩))
    · exact hs.distinct p hp q hq heq
  · intro p hp
    show (s.world.futures.create .pending).2.cells[p.2.index]? = _ ∨
      (s.world.futures.create .pending).2.cells[p.2.index]? = _
    rw [Futures.getElem?_create]
    rcases hkeys p hp with rfl | hp
    · exact .inl (if_pos rfl)
    · rw [if_neg (hnew _ (promised_iff.2 ⟨p.1, hp⟩))]
      exact hs.waiting p hp
  · unfold Futures.born State.stage
    show Stage.Steps _ (if _ then [] else ((s.world.futures.create .pending).2.cell id).origin)
      ⟨(s.world.futures.create .pending).2.cells[id.index]?, decide ((s.promise name).Promised id)⟩
    rw [Futures.getElem?_create, decide_eq_decide.2 (State.promised_promise h)]
    by_cases heq : id = (s.world.futures.create .pending).1
    · have hnot : ¬ s.Promised id := fun hp => hnew id hp heq
      have hge : ¬ id.index < s.world.futures.cells.length := by
        rw [heq]
        exact Nat.lt_irrefl _
      rw [if_neg hge, if_pos heq, decide_eq_false hnot,
        Futures.getElem?_eq_none (Nat.le_of_not_lt hge), decide_eq_true (.inl heq), heq,
        Futures.cell_create_self]
      exact .single .deferred
    · have hiff : id = (s.world.futures.create .pending).1 ∨ s.Promised id ↔ s.Promised id :=
        or_iff_right heq
      rw [if_neg heq, decide_eq_decide.2 hiff]
      split
      · exact .refl
      · next hlt =>
        have hne : id.index ≠ s.world.futures.cells.length :=
          fun h => heq (by cases id; exact congrArg _ h)
        have hnone := Futures.getElem?_eq_none (Nat.le_of_not_lt hlt)
        rw [Futures.cell_create, if_neg hne, Futures.cell, hnone]
        exact .refl

/-! ## Releasing before a step -/

theorem State.Sound.release (hs : s.Sound) : s.release.Sound where
  held b hb := (hs.held b hb).release (List.mem_map_of_mem hb)
  closed := hs.closed.release
  sorted := hs.sorted
  distinct := hs.distinct
  waiting p hp := by
    have hlt := hs.lt_of_promised (State.promised_iff.2 ⟨p.1, hp⟩)
    have hcells : s.release.world.futures.cells.length = s.world.futures.cells.length :=
      Futures.length_release
    rw [Futures.getElem?_eq_cell (by omega)]
    rcases Futures.cell_release_or (s.bindings.map Prod.snd) s.world.futures p.2 with hc | hc
    · have hw := hs.waiting p hp
      rw [Futures.getElem?_eq_cell hlt, ← hc] at hw
      exact hw
    · exact .inr (congrArg some hc)

/-- Releasing what is not held happens to no future that can be seen. -/
theorem State.steps_release (s : State) (id : FutureId) :
    Stage.Steps (s.stage id) [] (s.release.stage id) := by
  have hcells : s.release.world.futures.cells.length = s.world.futures.cells.length :=
    Futures.length_release
  have hpromised : s.release.Promised id ↔ s.Promised id := Iff.rfl
  unfold State.stage
  rw [decide_eq_decide.2 hpromised]
  by_cases hlt : id.index < s.world.futures.cells.length
  · rw [Futures.getElem?_eq_cell hlt, Futures.getElem?_eq_cell (by omega)]
    rcases Futures.cell_release_or (s.bindings.map Prod.snd) s.world.futures id with hc | hc
    · rw [show s.release.world.futures.cell id = _ from hc]
      exact .refl
    · rw [show s.release.world.futures.cell id = _ from hc]
      exact .release .refl
  · rw [Futures.getElem?_eq_none (by omega), Futures.getElem?_eq_none (by omega)]
    exact .refl

end Script

end ScriptValues
