import ScriptValues.Proofs.History

/-!
# Reads that answer

What each kind of read does in a given state. A future that was given a value answers every read at
once; one whose promise was dropped answers every read that waits with the abandoned error; and
until something is settled a read that waits stops the script.

* `Script.Awaits`, `Script.Tries`: what a read of the future in a variable answers now.
* `Script.awaits_of_answer`: a read that waits answers with what the cell answers.
* `Script.Reads`: what the past of a future says about the reads of it.
* `Script.futures_read_once`: the laws of all reads in every run.
-/

namespace ScriptValues

namespace Script

/-- Every read that waits for the future in this variable answers at once with this value: an
await, a call of `await`, and any number of readers at a time, whatever their own step does with the
promise of that name. -/
structure Awaits (s : State) (name : String) (v : Value) : Prop where
  await (result : Option String) :
    ∃ s', step (.await name result) s = some (.value v, s')
  call {b : Builtin} (result : Option String) : b.operation = .await →
    ∃ s', step (.call b [.variable name] result) s = some (.value v, s')
  dropping (n : Nat) :
    ∃ s', step (.awaitConcurrently name n none) s = some (.values (List.replicate n v), s')
  delivering {e : Expression} {w : Value} {s₁ : State} (n : Nat) :
    evaluate e s.release = some (w, s₁) →
      ∃ s', step (.awaitConcurrently name n (some e)) s = some (.values (List.replicate n v), s')

/-- No single read that waits for the future in this variable answers now. -/
structure Waits (s : State) (name : String) : Prop where
  await (result : Option String) : step (.await name result) s = none
  call {b : Builtin} (result : Option String) : b.operation = .await →
    step (.call b [.variable name] result) s = none

/-- What a read that does not wait answers for the future in this variable. -/
def Tries (s : State) (name : String) (answer : Option Value) : Prop :=
  ∃ s', step (.tryRead name) s = some (.tried answer, s')

variable {s s' s₁ : State} {id : FutureId} {name : String} {v w : Value} {e : Expression}
  {b : Builtin}

/-! ## One read -/

/-- One reader, who puts the answer into a variable. -/
def reader (id : FutureId) (result : Option String) : Run Answer := do
  let v ← read id
  store result v
  return .value v

theorem await_run (h : s.future? name = some id) (result : Option String) :
    perform (.await name result) s = reader id result s := by
  show Option.bind (futureIn name s) _ = _
  rw [futureIn_of_future h]
  rfl

theorem read_of_answer (h : (s.world.futures.cell id).answer? = some v) :
    read id s = some (v, s.withFutures (s.world.futures.set id (.resolved v))) := by
  unfold read
  rw [get_bind, Futures.read_eq_some.2 ⟨h, rfl⟩]
  rfl

theorem read_of_no_answer (h : (s.world.futures.cell id).answer? = none) : read id s = none := by
  unfold read
  rw [get_bind, Futures.read_eq_none h]
  rfl

theorem evaluateAll_variable (h : s.future? name = some id) :
    evaluateAll [.variable name] s = some ([.future id], s) := by
  have hitems : Expression.evaluateItems (Entries.lookup? · s.bindings) [.variable name]
      s.world.futures = some ([.future id], s.world.futures) := by
    simp only [Expression.evaluateItems, Expression.evaluate, lookup_of_future h]
    rfl
  unfold evaluateAll
  rw [hitems]
  rfl

theorem awaitCall_run (h : s.future? name = some id) (hop : b.operation = .await)
    (result : Option String) :
    perform (.call b [.variable name] result) s = reader id result s := by
  show Option.bind (evaluateAll [.variable name] s) _ = Option.bind (read id s) _
  rw [evaluateAll_variable h]
  show (get >>= _ : Run Answer) s = _
  rw [get_bind, Builtin.call_await hop]
  unfold read
  rw [get_bind]
  cases s.world.futures.read? id with
  | none => rfl
  | some answer => rfl

theorem reader_of_answer (h : (s.world.futures.cell id).answer? = some v)
    (result : Option String) : ∃ s', reader id result s = some (.value v, s') := by
  cases result with
  | none => exact ⟨_, bind_eq_some.2 ⟨v, _, read_of_answer h, rfl⟩⟩
  | some result => exact ⟨_, bind_eq_some.2 ⟨v, _, read_of_answer h, rfl⟩⟩

theorem reader_of_no_answer (h : (s.world.futures.cell id).answer? = none)
    (result : Option String) : reader id result s = none := by
  show Option.bind (read id s) _ = none
  rw [read_of_no_answer h]
  rfl

/-! ## Several reads -/

/-- After a read that answers, the answer stays. -/
theorem readTimes_of_answer (h : (s.world.futures.cell id).answer? = some v) (n : Nat) :
    ∃ s', readTimes id n s = some (List.replicate n v, s') := by
  induction n generalizing s with
  | zero => exact ⟨s, rfl⟩
  | succ n ih =>
    have hkept : ((s.withFutures (s.world.futures.set id (.resolved v))).world.futures.cell
        id).answer? = some v := by
      show ((s.world.futures.set id (.resolved v)).cell id).answer? = some v
      rw [Futures.cell_set_of_alive (Futures.alive_of_answer h), if_pos rfl]
      rfl
    obtain ⟨s', hrest⟩ := ih hkept
    refine ⟨s', bind_eq_some.2 ⟨v, _, read_of_answer h, ?_⟩⟩
    exact bind_eq_some.2 ⟨List.replicate n v, s', hrest, rfl⟩

theorem readers_of_answer (h : (s.world.futures.cell id).answer? = some v) (n : Nat) :
    ∃ s', readers id n s = some (.values (List.replicate n v), s') := by
  obtain ⟨s', hread⟩ := readTimes_of_answer h n
  exact ⟨s', bind_eq_some.2 ⟨_, s', hread, rfl⟩⟩

theorem ne_pending_of_answer {c : Cell} (h : c.answer? = some v) : c ≠ .pending := by
  rintro rfl
  cases h

/-- Dropping a promise leaves a settled future alone. -/
theorem answer_letGo (h : (s.world.futures.cell id).answer? = some v) :
    ((s.letGo name).world.futures.cell id).answer? = some v := by
  unfold State.letGo
  cases s.promised? name with
  | none => exact h
  | some promised =>
    show ((s.world.futures.abandon promised).cell id).answer? = some v
    rwa [Futures.cell_abandon_of_ne_pending (ne_pending_of_answer h)]

/-- Delivering leaves a settled future alone. -/
theorem answer_handOver (h : (s.world.futures.cell id).answer? = some v) :
    ((s.handOver name w).world.futures.cell id).answer? = some v := by
  unfold State.handOver
  cases s.promised? name with
  | none => exact h
  | some promised =>
    cases hd : s.world.futures.deliver promised w with
    | ok fs =>
      simp only [hd]
      show (fs.cell id).answer? = some v
      rwa [Futures.cell_deliver_of_ne_pending (ne_pending_of_answer h) hd]
    | error w =>
      simp only [hd]
      exact h

/-- Dropping the promise of a future that waits for it lets reads answer with the abandoned
error. -/
theorem answer_letGo_of_pending (hp : s.promised? name = some id)
    (h : s.world.futures.cell id = .pending) :
    ((s.letGo name).world.futures.cell id).answer? = some abandonedValue := by
  have halive : s.world.futures.Alive id := by
    rw [Futures.Alive, h]
    simp
  unfold State.letGo
  rw [hp]
  show ((s.world.futures.abandon id).cell id).answer? = _
  unfold Futures.abandon
  rw [h]
  show ((s.world.futures.set id .abandoned).cell id).answer? = _
  rw [Futures.cell_set_of_alive halive, if_pos rfl]
  rfl

/-- Delivering to a future that waits lets reads answer with the value. -/
theorem answer_handOver_of_pending (hp : s.promised? name = some id)
    (h : s.world.futures.cell id = .pending) :
    ((s.handOver name w).world.futures.cell id).answer? = some w := by
  have halive : s.world.futures.Alive id := by
    rw [Futures.Alive, h]
    simp
  unfold State.handOver
  rw [hp]
  simp only [Futures.deliver_of_pending h]
  show ((s.world.futures.set id (.delivered w)).cell id).answer? = _
  rw [Futures.cell_set_of_alive halive, if_pos rfl]
  rfl

/-- Evaluating changes no future that is there. -/
theorem cell_evaluate (hs : s.Sound) (hv : evaluate e s = some (v, s₁))
    (hlt : id.index < s.world.futures.cells.length) :
    s₁.world.futures.cell id = s.world.futures.cell id := by
  obtain ⟨fs, hm, rfl, -⟩ := evaluate_eq_some hs hv
  exact hm.cell_eq hlt

/-! ## The reads of a variable -/

/-- What the cell answers after the release, every read that waits answers. -/
theorem awaits_of_answer (hs : s.Sound) (hid : s.future? name = some id)
    (h : (s.release.world.futures.cell id).answer? = some v) : Awaits s name v where
  await result := by
    rw [step, await_run (s := s.release) hid]
    exact reader_of_answer h result
  call result hop := by
    rw [step, awaitCall_run (s := s.release) hid hop]
    exact reader_of_answer h result
  dropping n := by
    rw [step, awaitConcurrently_none_run (s := s.release) hid]
    exact readers_of_answer (answer_letGo h) n
  delivering {e w s₁} n he := by
    rw [step, awaitConcurrently_some_run (s := s.release) hid, he]
    refine readers_of_answer (answer_handOver ?_) n
    rwa [cell_evaluate hs.release he (Futures.lt_of_cell (Futures.alive_of_answer h))]

theorem waits_of_no_answer (hid : s.future? name = some id)
    (h : (s.release.world.futures.cell id).answer? = none) : Waits s name where
  await result := by
    rw [step, await_run (s := s.release) hid]
    exact reader_of_no_answer h result
  call result hop := by
    rw [step, awaitCall_run (s := s.release) hid hop]
    exact reader_of_no_answer h result

/-- What the cell holds after the release, a try answers. -/
theorem tries_content (hid : s.future? name = some id) :
    Tries s name (s.release.world.futures.cell id).content? := by
  refine ⟨s.release.withFutures (s.release.world.futures.tryRead id).2, ?_⟩
  rw [step, tryRead_run (s := s.release) hid, Futures.tryRead_eq]
  cases (s.release.world.futures.cell id).content? <;> rfl

/-- Once a future holds a value, every read answers with it. -/
theorem reads_of_content (hs : s.Sound) (hid : s.future? name = some id)
    (h : (s.release.world.futures.cell id).content? = some v) :
    Awaits s name v ∧ Tries s name (some v) :=
  ⟨awaits_of_answer hs hid (Stage.answer_of_content h), h ▸ tries_content hid⟩

/-- What the past of a future says about the reads of it through a variable: every handle in a
variable is as good as any other. -/
structure Reads (s : State) (name : String) (id : FutureId) (past : List Happening) : Prop where
  /-- Once the future was given a value, every read answers with it. -/
  known {v : Value} : Stage.Known past v → Awaits s name v ∧ Tries s name (some v)
  /-- Once its promise was dropped, every read that waits answers with the abandoned error, and a
  try finds nothing until one did. -/
  abandoned : .abandoned ∈ past →
    Awaits s name abandonedValue ∧ (¬ InCache past → Tries s name none)
  /-- Until something is settled, no read answers. -/
  undecided : Stage.Undecided past → Waits s name ∧ Tries s name none
  /-- Readers that wait are answered once their promise delivers. -/
  delivering {e : Expression} {w : Value} {s₁ : State} (n : Nat) :
    Stage.Undecided past → s.promised? name = some id → evaluate e s.release = some (w, s₁) →
      ∃ s', step (.awaitConcurrently name n (some e)) s = some (.values (List.replicate n w), s')
  /-- Readers that wait are answered once their promise is dropped. -/
  dropping (n : Nat) : Stage.Undecided past → s.promised? name = some id →
    ∃ s', step (.awaitConcurrently name n none) s =
      some (.values (List.replicate n abandonedValue), s')
  /-- The future is resolved exactly if it is in the cache. -/
  asked : ∃ b s', step (.isResolved name) s = some (.flag b, s') ∧ (b = true ↔ InCache past)

/-- The past of a future settles what every read of it answers. -/
theorem reads_of_fits {past : List Happening} (hs : s.Sound) (hid : s.future? name = some id)
    (h : Stage.Fits past (s.release.stage id)) : Reads s name id past := by
  have halive : s.release.world.futures.Alive id := hs.release.alive_of_future hid
  rw [State.stage_eq halive] at h
  refine ⟨fun hk => ?_, fun ha => ?_, fun hu => ?_, fun n hu hp he => ?_, fun n hu hp => ?_, ?_⟩
  · exact reads_of_content hs hid (h.content_of_known halive hk)
  · refine ⟨awaits_of_answer hs hid (h.answer_of_abandoned halive ha), fun hc => ?_⟩
    have hnone := h.content_eq_none hc fun v hv => (h.consistent.delivered hv).2.1 ha
    exact hnone ▸ tries_content hid
  · have hc := h.pending_of_undecided halive hu
    refine ⟨waits_of_no_answer hid (by rw [hc]; rfl), ?_⟩
    have hcontent : (s.release.world.futures.cell id).content? = none := by rw [hc]; rfl
    exact hcontent ▸ tries_content hid
  · have hc := h.pending_of_undecided halive hu
    rw [step, awaitConcurrently_some_run (s := s.release) hid, he]
    refine readers_of_answer (answer_handOver_of_pending ?_ ?_) n
    · exact (promised_evaluate hs.release he name).trans hp
    · rw [cell_evaluate hs.release he (Futures.lt_of_cell halive), hc]
  · have hc := h.pending_of_undecided halive hu
    rw [step, awaitConcurrently_none_run (s := s.release) hid]
    exact readers_of_answer (answer_letGo_of_pending (s := s.release) hp hc) n
  · refine ⟨_, _, isResolved_run (s := s.release) hid, ?_⟩
    rw [Futures.isResolved_eq]
    exact h.isResolved_iff halive

/-! ## Every run -/

/-- A try that finds nothing changes nothing, apart from the release before it. -/
theorem after_of_tried_none {before after : State}
    (h : step (.tryRead name) before = some (.tried none, after)) : after = before.release := by
  obtain ⟨id, s₁, hfuture, -⟩ := bind_eq_some.1 h
  obtain ⟨hid, -⟩ := futureIn_eq_some hfuture
  rw [step, tryRead_run hid, Futures.tryRead_eq] at h
  cases hc : (before.release.world.futures.cell id).content? with
  | some v =>
    rw [hc] at h
    cases h
  | none =>
    rw [hc] at h
    exact (Prod.mk.inj (Option.some.inj h)).2.symm

theorem release_release (s : State) : s.release.release = s.release := by
  show State.mk _ _ _ = State.mk _ _ _
  congr 1
  exact congrArg (fun fs => { s.world with futures := fs }) (Futures.release_release _ _)

/-- Futures are read once. In every run every future obeys the laws of `ReadOnce`; wherever the run
stands, its past settles what every read of it answers there; and after a try that finds nothing
every action goes as it would have gone without the try. -/
theorem futures_read_once (world : World) (actions : List Action) :
    (∀ id, ReadOnce (history id (trace actions (State.initial world)))) ∧
      (∀ name id, (final actions (State.initial world)).future? name = some id →
        Reads (final actions (State.initial world)) name id
          (history id (trace actions (State.initial world)))) ∧
      ∀ m ∈ trace actions (State.initial world), ∀ name, m.action = .tryRead name →
        m.answer = .tried none → ∀ next, step next m.after = step next m.before := by
  refine ⟨fun id => (life_of_trace world actions id).readOnce, ?_, ?_⟩
  · intro name id hid
    have hs := (steps_trace (State.sound_initial world) actions).1
    have hlife := (life_of_trace world actions id).trans (State.steps_release _ id)
    rw [List.append_nil] at hlife
    exact reads_of_fits hs hid (Stage.Life.fits hlife)
  · intro m hm name haction hanswer next
    have hstep := step_of_mem_trace hm
    rw [haction, hanswer] at hstep
    rw [after_of_tried_none hstep, step, step, release_release]

/-- The promise of one future is dropped and another one delivers. -/
def droppedAndDelivered : List Action :=
  [.deferred "x", .deferred "y", .tryRead "x", .abandon "x", .deliver "y" (.constant (.int 1)),
    .tryRead "x"]

/-- A dropped promise lets every read that waits answer, and once one did a try answers too. -/
theorem futures_read_once_dropped :
    history ⟨0⟩ (trace droppedAndDelivered (State.initial .bare)) =
        [.deferred, .tried none, .abandoned, .tried none] ∧
      ReadOnce (history ⟨0⟩ (trace droppedAndDelivered (State.initial .bare))) ∧
      Awaits (final droppedAndDelivered (State.initial .bare)) "x" abandonedValue ∧
      Tries (final droppedAndDelivered (State.initial .bare)) "x" none ∧
      Awaits (final droppedAndDelivered (State.initial .bare)) "y" (.int 1) ∧
      Tries (final droppedAndDelivered (State.initial .bare)) "y" (some (.int 1)) ∧
      Tries (final (droppedAndDelivered ++ [.await "x" none]) (State.initial .bare)) "x"
        (some abandonedValue) := by
  obtain ⟨hlaws, hreads, -⟩ := futures_read_once .bare droppedAndDelivered
  obtain ⟨-, hagain, -⟩ := futures_read_once .bare (droppedAndDelivered ++ [.await "x" none])
  have hpast : history ⟨0⟩ (trace droppedAndDelivered (State.initial .bare)) =
      [.deferred, .tried none, .abandoned, .tried none] := rfl
  have hx := hreads "x" ⟨0⟩ rfl
  have hy := hreads "y" ⟨1⟩ rfl
  obtain ⟨hawaits, htries⟩ := hx.abandoned (by rw [hpast]; simp)
  have hunread : ¬ InCache (history ⟨0⟩ (trace droppedAndDelivered (State.initial .bare))) := by
    rw [hpast]
    simp [InCache, Happening.answer?]
  have hdelivered := hy.known (.inl (List.mem_cons_of_mem _ List.mem_cons_self))
  have hpast' : history ⟨0⟩ (trace (droppedAndDelivered ++ [.await "x" none])
      (State.initial .bare)) =
        [.deferred, .tried none, .abandoned, .tried none, .awaited abandonedValue] := rfl
  have hread := (hagain "x" ⟨0⟩ rfl).known
    (.inr (.inr ⟨.awaited abandonedValue, by rw [hpast']; simp, rfl⟩))
  exact ⟨hpast, hlaws ⟨0⟩, hawaits, htries hunread, hdelivered.1, hdelivered.2, hread.2⟩

end Script

end ScriptValues
