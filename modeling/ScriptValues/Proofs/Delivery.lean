import ScriptValues.Proofs.Reads

/-!
# When a delivery fails

Between two steps a future is released exactly if no variable leads to it, as long as no future was
given a value that leads back to it. So a delivery fails exactly when nobody could ever read it.

* `Script.State.Reaches`: a handle can be reached from the variables.
* `Script.cell_release`: what a release keeps and what it lets go.
* `Script.reads_of_delivered`: what was delivered is what every later read answers.
* `Script.deliver_fails_iff_not_reaches`: the characterization of deliveries.
-/

namespace ScriptValues

namespace Script

/-- A handle to the future can be reached from the variables, through lists, mappings and the values
inside futures, whether those were read or not. -/
def State.Reaches (s : State) (id : FutureId) : Prop :=
  s.world.futures.Reachable (s.bindings.map Prod.snd) id

/-- No future was given a value that leads back to it. One that is made ready never is, since its
value is there before it. -/
def NeverTangled (moments : List Moment) : Prop :=
  ∀ m ∈ moments, ∀ id v, .delivered v ∈ m.happenings id →
    ¬ m.after.world.futures.Reachable [v] id

variable {s s₁ : State} {id other : FutureId} {name : String} {v : Value} {e : Expression}

theorem State.Sound.alive_of_reaches (hs : s.Sound) (h : s.Reaches id) :
    s.world.futures.Alive id := by
  unfold State.Reaches at h
  induction h with
  | root hv hid =>
    obtain ⟨b, hb, rfl⟩ := List.mem_map.1 hv
    exact hs.held b hb _ hid
  | through _ hid _ => exact hs.closed _ _ hid

/-- A release keeps what the variables reach and lets everything else go. -/
theorem cell_release (ht : s.world.futures.Untangled) (id : FutureId) :
    (s.Reaches id → s.release.world.futures.cell id = s.world.futures.cell id) ∧
      (¬ s.Reaches id → s.release.world.futures.cell id = .released) :=
  ⟨Futures.cell_release_of_reachable, Futures.cell_release_of_not_reachable ht⟩

/-- After the release, the future of a promise waits for it if a variable leads there. -/
theorem cell_of_reaches (hs : s.Sound) (ht : s.world.futures.Untangled)
    (hp : s.promised? name = some id) (h : s.Reaches id) :
    s.release.world.futures.cell id = .pending := by
  have hkept := (cell_release ht id).1 h
  rcases hs.release.cell_of_promise hp with hc | hc
  · exact hc
  · rw [hkept] at hc
    exact absurd hc (hs.alive_of_reaches h)

theorem untangled_initial (world : World) : (State.initial world).world.futures.Untangled := by
  have hnone : ∀ a b, ¬ (State.initial world).world.futures.Holds a b := by
    intro a b hh
    simp [Futures.Holds, State.initial, Futures.empty, Futures.cell] at hh
  intro id hid
  obtain ⟨b, hb, -⟩ := Relation.TransGen.head'_iff.1 hid
  exact hnone id b hb

/-- A delivery fails if the future is released. -/
theorem step_deliver_of_released (hs : s.Sound) (hp : s.promised? name = some id)
    (hv : evaluate e s.release = some (v, s₁)) (hc : s₁.world.futures.cell id = .released) :
    step (.deliver name e) s = some (.undelivered v, s₁.without name) := by
  have hp₁ : s₁.promised? name = some id := (promised_evaluate hs.release hv name).trans hp
  rw [step, deliver_run, hv, Option.map_some]
  simp only [hp₁, Futures.deliver_of_released hc]

/-- A delivery succeeds if the future waits for it. -/
theorem step_deliver_of_pending (hs : s.Sound) (hp : s.promised? name = some id)
    (hv : evaluate e s.release = some (v, s₁)) (hc : s₁.world.futures.cell id = .pending) :
    step (.deliver name e) s = some (.delivered,
      (s₁.without name).withFutures (s₁.world.futures.set id (.delivered v))) := by
  have hp₁ : s₁.promised? name = some id := (promised_evaluate hs.release hv name).trans hp
  rw [step, deliver_run, hv, Option.map_some]
  simp only [hp₁, Futures.deliver_of_pending hc]

/-- After a delivery the future holds the value and has no promise. -/
theorem stage_after_deliver (hs : s₁.Sound) (hp : s₁.promised? name = some id)
    (hc : s₁.world.futures.cell id = .pending) :
    State.stage ((s₁.without name).withFutures (s₁.world.futures.set id (.delivered v))) id =
      ⟨some (.delivered v), false⟩ := by
  have halive : s₁.world.futures.Alive id := by
    rw [Futures.Alive, hc]
    simp
  have hnot : ¬ (s₁.without name).Promised id := fun h => ((hs.promised_without hp).1 h).2 rfl
  show Stage.mk (s₁.world.futures.set id (.delivered v)).cells[id.index]?
    (decide ((s₁.without name).Promised id)) = _
  rw [Futures.getElem?_set halive, if_pos rfl, decide_eq_false hnot]

/-- Once a future holds a delivered value, every read of every later run answers with it. -/
theorem reads_of_delivered (hs : s.Sound) (hstage : s.stage id = ⟨some (.delivered v), false⟩)
    (later : List Action) :
    (∀ happening ∈ history id (trace later s),
      (∀ w, happening.answer? = some w → w = v) ∧ happening ≠ .tried none) ∧
    ∀ place, (final later s).future? place = some id →
      Awaits (final later s) place v ∧ Tries (final later s) place (some v) := by
  obtain ⟨hsound, hsteps⟩ := steps_trace hs later
  have hlife := (hsteps id).trans (State.steps_release _ id)
  rw [hstage, List.append_nil] at hlife
  obtain ⟨hreads, c, hcell, hkept⟩ := hlife.of_delivered
  refine ⟨hreads, fun place hplace => reads_of_content hsound hplace ?_⟩
  have halive := hsound.release.alive_of_future hplace
  rw [State.stage_eq halive] at hcell
  obtain rfl := Option.some.inj (Stage.mk.inj hcell).1
  exact hkept halive

/-- In a run that never gives a future a value which leads back to it, a delivery fails exactly if
the future cannot be reached from the variables. If it fails, the value is handed back, the
variables and the other promises are as they were, and so is every future that can be reached; those
that cannot are released. If it succeeds, the future holds the value, every read from then on that
answers gives the value and none finds nothing, and wherever a later run stands, every read through
a variable answers with it. -/
theorem deliver_fails_iff_not_reaches (world : World) (earlier : List Action) (name : String)
    (e : Expression) (v : Value) (id : FutureId) (s s₁ : State)
    (hfinal : s = final earlier (State.initial world))
    (htangled : NeverTangled (trace earlier (State.initial world)))
    (hp : s.promised? name = some id) (hv : evaluate e s.release = some (v, s₁)) :
    (¬ s.Reaches id → ∃ s', step (.deliver name e) s = some (.undelivered v, s') ∧
      s'.bindings = s.bindings ∧
      (∀ other, other ≠ name → s'.promised? other = s.promised? other) ∧
      (∀ other, s.Reaches other → s'.world.futures.cell other = s.world.futures.cell other) ∧
      (∀ other, other.index < s.world.futures.cells.length → ¬ s.Reaches other →
        s'.world.futures.cell other = .released)) ∧
    (s.Reaches id → ∃ s', step (.deliver name e) s = some (.delivered, s') ∧
      s'.world.futures.cell id = .delivered v ∧
      ∀ later,
        (∀ happening ∈ history id (trace later s'),
          (∀ w, happening.answer? = some w → w = v) ∧ happening ≠ .tried none) ∧
        ∀ place, (final later s').future? place = some id →
          Awaits (final later s') place v ∧ Tries (final later s') place (some v)) := by
  have hs : s.Sound := hfinal ▸ (steps_trace (State.sound_initial world) earlier).1
  have ht : s.world.futures.Untangled := hfinal ▸
    untangled_trace (State.sound_initial world) (untangled_initial world) htangled
  obtain ⟨hmade, -, hbindings, hpromises⟩ := evolves_evaluate hs.release hv
  have hlength : s.release.world.futures.cells.length = s.world.futures.cells.length :=
    Futures.length_release
  have hcell : ∀ other : FutureId, other.index < s.world.futures.cells.length →
      s₁.world.futures.cell other = s.release.world.futures.cell other :=
    fun other hlt => cell_evaluate hs.release hv (by omega)
  have hlt : id.index < s.world.futures.cells.length :=
    hs.lt_of_promised (State.promised_iff.2 ⟨name, Entries.mem_of_lookup hp⟩)
  constructor
  · intro hunreached
    have hc : s₁.world.futures.cell id = .released := by
      rw [hcell id hlt]
      exact (cell_release ht id).2 hunreached
    refine ⟨_, step_deliver_of_released hs hp hv hc, hbindings, ?_, ?_, ?_⟩
    · intro other hne
      show Entries.lookup? other (Entries.erase name s₁.promises) = s.promised? other
      rw [Entries.lookup_erase, if_neg hne, hpromises]
      rfl
    · intro other hother
      have hlt' := Futures.lt_of_cell (hs.alive_of_reaches hother)
      exact (hcell other hlt').trans ((cell_release ht other).1 hother)
    · intro other hlt' hother
      exact (hcell other hlt').trans ((cell_release ht other).2 hother)
  · intro hreached
    have hc : s₁.world.futures.cell id = .pending := by
      rw [hcell id hlt]
      exact cell_of_reaches hs ht hp hreached
    have hp₁ : s₁.promised? name = some id := (promised_evaluate hs.release hv name).trans hp
    have hstep := step_deliver_of_pending hs hp hv hc
    have hstage := stage_after_deliver (v := v) hmade.sound hp₁ hc
    exact ⟨_, hstep, Futures.cell_of_getElem? (congrArg Stage.cell hstage),
      reads_of_delivered (sound_step hs hstep) hstage⟩

/-- One future is delivered into another, which alone holds it from then on. -/
def heldInside : List Action :=
  [.deferred "inner", .deferred "outer", .deliver "outer" (.list [.variable "inner"]),
    .drop "inner"]

/-- Then the other one is dropped as well. -/
def droppedTogether : List Action := heldInside ++ [.drop "outer"]

/-- The value of the other one is read, and the future is taken out of it. -/
def takenOut : List Action :=
  [.await "outer" (some "items"), .call ⟨"first", .compute .first⟩ [.variable "items"] (some "x")]

/-- A run is tangled no earlier than its beginning. -/
theorem NeverTangled.of_append {actions more : List Action}
    (h : NeverTangled (trace (actions ++ more) s)) : NeverTangled (trace actions s) := by
  induction actions generalizing s with
  | nil => exact fun m hm => absurd hm List.not_mem_nil
  | cons action rest ih =>
    rw [List.cons_append, trace] at h
    rw [trace]
    cases hstep : step action s with
    | none => exact fun m hm => absurd hm List.not_mem_nil
    | some r =>
      rw [hstep] at h
      have hrest := ih fun m hm => h m (List.mem_cons_of_mem _ hm)
      intro m hm
      rcases List.mem_cons.1 hm with rfl | hm
      · exact h _ List.mem_cons_self
      · exact hrest m hm

theorem neverTangled_droppedTogether :
    NeverTangled (trace droppedTogether (State.initial .bare)) := by
  intro m hm id v hv
  rcases hm with _ | ⟨_, _ | ⟨_, _ | ⟨_, _ | ⟨_, _ | ⟨_, hm⟩⟩⟩⟩⟩
  · rcases id with ⟨_ | n⟩
    · rcases hv with _ | ⟨_, hv⟩
      cases hv
    · cases hv
  · rcases id with ⟨_ | _ | n⟩
    · cases hv
    · rcases hv with _ | ⟨_, hv⟩
      cases hv
    · cases hv
  · rcases id with ⟨_ | _ | n⟩
    · cases hv
    · rcases hv with _ | ⟨_, hv⟩
      · -- the value leads to the first future only, which holds nothing
        intro hr
        have hfirst : ∀ other, Futures.Reachable
            ⟨[.pending, .delivered (.list [.future ⟨0⟩])]⟩ [.list [.future ⟨0⟩]] other →
              other = ⟨0⟩ := by
          intro other hr
          induction hr with
          | root hw hid =>
            rw [List.mem_singleton.1 hw] at hid
            simpa using hid
          | through _ hid ih =>
            rw [ih] at hid
            cases hid
        cases hfirst _ hr
      · cases hv
    · cases hv
  · rcases id with ⟨_ | _ | n⟩ <;> cases hv
  · rcases id with ⟨_ | _ | n⟩ <;> cases hv
  · cases hm

/-- Dropping the last handle of the outer future releases the handle inside it, and a delivery to the
inner one fails. As long as the outer one is held the delivery succeeds, and once the inner one was
taken out of it every read answers with the value. -/
theorem inner_delivery_dropped_or_held :
    (∃ s', step (.deliver "inner" (.constant (.int 1)))
      (final droppedTogether (State.initial .bare)) = some (.undelivered (.int 1), s')) ∧
    ∃ s', step (.deliver "inner" (.constant (.int 1)))
        (final heldInside (State.initial .bare)) = some (.delivered, s') ∧
      s'.world.futures.cell ⟨0⟩ = .delivered (.int 1) ∧
      Awaits (final takenOut s') "x" (.int 1) ∧
      Tries (final takenOut s') "x" (some (.int 1)) := by
  have hnone : ∀ id, ¬ (final droppedTogether (State.initial .bare)).Reaches id := by
    intro id hr
    unfold State.Reaches at hr
    induction hr with
    | root hv _ => cases hv
    | through _ _ ih => exact ih
  have hheld : (final heldInside (State.initial .bare)).Reaches ⟨0⟩ := by
    have houter : (final heldInside (State.initial .bare)).Reaches ⟨1⟩ :=
      .root List.mem_cons_self (Value.mem_handles_future.2 rfl)
    exact .through houter List.mem_cons_self
  have hpart : NeverTangled (trace heldInside (State.initial .bare)) :=
    neverTangled_droppedTogether.of_append
  obtain ⟨s', hstep, -⟩ := (deliver_fails_iff_not_reaches .bare droppedTogether "inner"
    (.constant (.int 1)) (.int 1) ⟨0⟩ _ _ rfl neverTangled_droppedTogether rfl rfl).1 (hnone ⟨0⟩)
  obtain ⟨s'', hstep', hcell, hlater⟩ := (deliver_fails_iff_not_reaches .bare heldInside "inner"
    (.constant (.int 1)) (.int 1) ⟨0⟩ _ _ rfl hpart rfl rfl).2 hheld
  have hplace : (final takenOut s'').future? "x" = some ⟨0⟩ := by
    cases hstep'
    rfl
  exact ⟨⟨s', hstep⟩, s'', hstep', hcell, (hlater takenOut).2 "x" hplace⟩

end Script

end ScriptValues
