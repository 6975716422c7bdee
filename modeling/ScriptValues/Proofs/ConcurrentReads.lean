import Mathlib.Algebra.GroupWithZero.Nat
import ScriptValues.Proofs.HandoverSteps
import ScriptValues.Proofs.Lifecycle

/-!
# What concurrent readers of one future see

The invariant of `HandoverSteps` is brought to bear on whole runs.

* `Inv.steps`: every step is at most one step in the life of a future that is read in single steps.
* `State.work`: what the readers have left to do, which every step lessens once the promise is
  settled. `Inv.reads_eq_nil`: they stop only when all their reads have ended.
* `handoverLaws_of_run`: the laws of `HandoverLaws` hold after any steps in any order.
-/

namespace ScriptValues

namespace Handover

variable {s s' : Shared} {t t' : Thread} {threads : List Thread} {r : Read} {v : Value} {i : Nat}
  {σ σ' : State} {m : Move}

/-! ## The life of the future -/

/-- The cell that the readers share, seen as one that nobody fills in several steps. -/
def State.cell (σ : State) : Cell :=
  match σ.attached, σ.shared.cache, σ.shared.promise with
  | false, _, _ => .released
  | true, some v, _ => .resolved v
  | true, none, .pending => .pending
  | true, none, .delivered v => .delivered v
  | true, none, .refused _ => .released
  | true, none, .dropped => .abandoned

/-- Whether the producer has still to settle the promise. -/
def Promise.isOpen : Promise → Bool
  | .pending => true
  | _ => false

def State.stage (σ : State) : ScriptValues.Stage := ⟨some σ.cell, σ.shared.promise.isOpen⟩

/-- What an answer tells about the future. A try without an answer tells nothing: the value may be
on its way from the channel to the cache. -/
def happening? : Read × Option Value → Option Happening
  | (.await, some v) => some (.awaited v)
  | (.tryRead, some v) => some (.tried (some v))
  | (_, none) => none

/-- What happens to the future in one step. -/
def happenings (m : Move) (σ σ' : State) : List Happening :=
  match m with
  | .deliver v => [if σ.attached then .delivered v else .refused v]
  | .drop => [.abandoned]
  | .leave _ => []
  | .advance i =>
    match σ.threads[i]?, σ'.threads[i]? with
    | some t, some t' => (t'.answers.drop t.answers.length).filterMap happening?
    | _, _ => []

/-- What happens to the future while the moves are made. -/
def history : List Move → State → List Happening
  | [], _ => []
  | m :: rest, σ =>
    match step m σ with
    | some σ' => happenings m σ σ' ++ history rest σ'
    | none => []

theorem happenings_advance (hi : σ.threads[i]? = some t) :
    happenings (.advance i) σ ⟨s', σ.threads.set i t'⟩ =
      (t'.answers.drop t.answers.length).filterMap happening? := by
  rw [happenings, hi, getElem?_set_of_getElem? hi, if_pos rfl]

theorem State.cell_of_cache (ha : σ.attached = true) (hc : σ.shared.cache = some v) :
    σ.cell = .resolved v := by
  rw [State.cell, ha, hc]

/-- What a reader publishes is what a read of the future answers. -/
theorem State.cell_of_outcome (ha : σ.attached = true) (hc : σ.shared.cache = none)
    (hr : ∀ w, σ.shared.promise ≠ .refused w) (ho : σ.shared.promise.outcome? = some v) :
    σ.cell.answer? = some v := by
  cases hp : σ.shared.promise with
  | pending => simp [hp, Promise.outcome?] at ho
  | refused w => exact absurd hp (hr w)
  | delivered w => simpa [State.cell, ha, hc, hp, Promise.outcome?, Cell.answer?] using ho
  | dropped => simpa [State.cell, ha, hc, hp, Promise.outcome?, Cell.answer?] using ho

theorem State.cell_of_delivered (ha : σ.attached = true) (hc : σ.shared.cache = none)
    (hp : σ.shared.promise = .delivered v) : σ.cell = .delivered v := by
  rw [State.cell, ha, hc, hp]

/-- A step that no read is finished in is invisible. -/
theorem stage_eq (ha : σ'.attached = σ.attached) (hc : σ'.shared.cache = σ.shared.cache)
    (hp : σ'.shared.promise = σ.shared.promise) : σ'.stage = σ.stage := by
  rw [State.stage, State.stage, State.cell, State.cell, ha, hc, hp]

theorem Phase.cache_of_pending (h : Phase s threads) (hp : s.promise = .pending) :
    s.cache = none := by
  cases hc : s.cache with
  | none => rfl
  | some v =>
    have ho := h.outcome_of_cache hc
    simp [hp, Promise.outcome?] at ho

theorem State.stage_of_pending (h : Phase σ.shared σ.threads) (hp : σ.shared.promise = .pending) :
    σ.stage = ⟨some (if σ.attached then .pending else .released), true⟩ := by
  rw [State.stage, State.cell, h.cache_of_pending hp, hp]
  cases σ.attached <;> rfl

/-- What the producer does is a step in the life of the future. -/
theorem steps_settle {outcome : Promise} (h : Phase σ.shared σ.threads)
    (hm : m.outcome? σ = some outcome) (hp : σ.shared.promise = .pending) :
    ScriptValues.Stage.Steps σ.stage (happenings m σ σ')
      (State.stage ⟨{ σ.shared with promise := outcome, channel := outcome.content? },
        σ.threads⟩) := by
  have hc := h.cache_of_pending hp
  rw [State.stage_of_pending h hp]
  cases ha : σ.attached with
  | true =>
    have ha' (s : Shared) : State.attached ⟨s, σ.threads⟩ = true := ha
    cases m with
    | deliver v =>
      obtain rfl : .delivered v = outcome := by simpa [Move.outcome?, State.outcome, ha] using hm
      simpa [happenings, State.stage, State.cell, ha, ha', hc] using .single (.delivered v)
    | drop =>
      obtain rfl : .dropped = outcome := by simpa [Move.outcome?] using hm
      simpa [happenings, State.stage, State.cell, ha, ha', hc] using .single .abandoned
    | advance | leave => cases hm
  | false =>
    have ha' (s : Shared) : State.attached ⟨s, σ.threads⟩ = false := ha
    cases m with
    | deliver v =>
      obtain rfl : .refused v = outcome := by simpa [Move.outcome?, State.outcome, ha] using hm
      simpa [happenings, State.stage, State.cell, ha, ha'] using .single (.refused v)
    | drop =>
      obtain rfl : .dropped = outcome := by simpa [Move.outcome?] using hm
      simpa [happenings, State.stage, State.cell, ha, ha'] using .single .abandonedUnseen
    | advance | leave => cases hm

/-- An answer is a read of the future, if the cell holds it then. A try needs the value itself. -/
theorem steps_answer (hv : σ.cell.answer? = some v)
    (htry : r = .tryRead → σ.cell.content? = some v)
    (hcell : σ'.cell = .resolved v) (hp : σ'.shared.promise = σ.shared.promise) :
    ScriptValues.Stage.Steps σ.stage ([(r, some v)].filterMap happening?) σ'.stage := by
  have hstage : σ'.stage = ⟨some (.resolved v), σ.shared.promise.isOpen⟩ := by
    rw [State.stage, hcell, hp]
  rw [hstage]
  cases r with
  | await => exact .single (.awaited hv)
  | tryRead => exact .single (.tried (htry rfl))

/-- What a reader does is at most one step in the life of the future. -/
theorem Inv.steps_read {reads : List (List Read)} {rest : List Read} (h : Inv reads σ)
    (hi : σ.threads[i]? = some t) (hreads : t.reads = r :: rest)
    (hr : ReadStep σ.shared t r s' t') :
    ScriptValues.Stage.Steps σ.stage ((t'.answers.drop t.answers.length).filterMap happening?)
      (State.stage ⟨s', σ.threads.set i t'⟩) := by
  have hok := h.ok t (List.mem_of_getElem? hi)
  have ha : σ.attached = true := h.attached hi (by simp [hreads])
  have ha' : State.attached ⟨s', σ.threads.set i t'⟩ = true := by
    have hself : (σ.threads.set i t')[i]? = some t' := by
      rw [getElem?_set_of_getElem? hi, if_pos rfl]
    exact attached_of_mem (List.mem_of_getElem? hself)
      (hr.attached.trans (hok.busy (by simp [hreads])))
  have answers (answer : Option Value) :
      (t.finish r answer).answers.drop t.answers.length = [(r, answer)] := by
    simp [Thread.finish]
  -- a step without an answer that leaves the cache and the promise alone
  have idle (hdrop : (t'.answers.drop t.answers.length).filterMap happening? = [])
      (hc : s'.cache = σ.shared.cache) :
      ScriptValues.Stage.Steps σ.stage ((t'.answers.drop t.answers.length).filterMap happening?)
        (State.stage ⟨s', σ.threads.set i t'⟩) := by
    rw [hdrop, stage_eq (ha'.trans ha.symm) hc hr.promise]
    exact .refl
  cases hr with
  | @found v _ hc =>
    have hcell := State.cell_of_cache ha hc
    rw [answers]
    exact steps_answer (by rw [hcell]; rfl) (fun _ => by rw [hcell]; rfl)
      (State.cell_of_cache ha' hc) rfl
  | empty => exact idle (by rw [answers]; cases r <;> rfl) rfl
  | @publishes v hs =>
    obtain ⟨-, hc, -, ho, -⟩ := h.phase.of_publish hi hs
    have hrefused (w : Value) : σ.shared.promise ≠ .refused w := fun hw => by
      simp [h.refused w hw] at ha
    have hv := State.cell_of_outcome ha hc hrefused ho
    rw [answers]
    refine steps_answer hv ?_ (State.cell_of_cache ha' rfl) rfl
    rintro rfl
    obtain ⟨w, hw⟩ := hok.informed (by simp [hreads]) (by simp [hs]) (by simp [hs])
    rw [State.cell_of_delivered ha hc hw] at hv ⊢
    exact hv
  | waits | tries | full | looked | claims | takes | givesUp => exact idle (by simp) rfl

/-- Every step is a step in the life of the future. -/
theorem Inv.steps {reads : List (List Read)} (h : Inv reads σ) (hs : Step σ m σ') :
    ScriptValues.Stage.Steps σ.stage (happenings m σ σ') σ'.stage := by
  cases hs with
  | settles hm hp => exact steps_settle h.phase hm hp
  | advances hi hreads hr =>
    rw [happenings_advance hi]
    exact h.steps_read hi hreads hr
  | @leaves i t hi hreads ha =>
    generalize hσ' : (⟨σ.shared, σ.threads.set i { t with attached := false }⟩ : State) = σ'
    cases ha' : σ'.attached with
    | true =>
      have hbefore : σ.attached = true := attached_leave (hσ' ▸ ha')
      rw [stage_eq (ha'.trans hbefore.symm) (by rw [← hσ']) (by rw [← hσ'])]
      exact .refl
    | false =>
      have hstage : σ'.stage = ⟨some .released, σ.shared.promise.isOpen⟩ := by
        rw [State.stage, State.cell, ha', ← hσ']
      rw [hstage]
      exact .release .refl

/-! ## Every read ends -/

/-- How many steps a read has before it, at most. -/
def Stage.rank : Stage → Nat
  | .start => 5
  | .test => 4
  | .look => 3
  | .claim => 2
  | .receive => 1
  | .publish _ => 0

/-- How many steps a reader has before it, at most. -/
def Thread.work (t : Thread) : Nat := 6 * t.reads.length + t.stage.rank + t.attached.toNat

/-- How many steps all readers have before them, at most. -/
def State.work (σ : State) : Nat := (σ.threads.map Thread.work).sum

theorem Thread.work_finish {rest : List Read} {answer : Option Value}
    (hreads : t.reads = r :: rest) : (t.finish r answer).work < t.work := by
  simp only [Thread.work, Thread.finish, hreads, List.tail_cons, List.length_cons, Stage.rank]
  omega

theorem Thread.work_goOn {next : Stage} (h : next.rank < t.stage.rank) :
    Thread.work { t with stage := next } < t.work := by
  simp only [Thread.work]
  omega

theorem ReadStep.work_lt {rest : List Read} (h : ReadStep s t r s' t')
    (hreads : t.reads = r :: rest) : t'.work < t.work := by
  cases h with
  | found | empty | publishes => exact Thread.work_finish hreads
  | waits hs | tries hs | full hs | looked hs | claims hs | takes hs | givesUp hs =>
    exact Thread.work_goOn (by simp [hs, Stage.rank])

theorem work_set_lt (hi : threads[i]? = some t) (h : t'.work < t.work) :
    ((threads.set i t').map Thread.work).sum < (threads.map Thread.work).sum := by
  induction threads generalizing i with
  | nil => simp at hi
  | cons u rest ih =>
    cases i with
    | zero =>
      obtain rfl : u = t := by simpa using hi
      simpa using h
    | succ i => simpa using ih (by simpa using hi)

/-- Once the promise is settled, every step leaves less to do. -/
theorem Step.work_lt (h : Step σ m σ') (hp : σ.shared.promise ≠ .pending) : σ'.work < σ.work := by
  cases h with
  | settles _ hpending => exact absurd hpending hp
  | advances hi hreads hr => exact work_set_lt hi (hr.work_lt hreads)
  | leaves hi _ ha => exact work_set_lt hi (by simp [Thread.work, ha])

theorem Step.promise_ne_pending (h : Step σ m σ') (hp : σ.shared.promise ≠ .pending) :
    σ'.shared.promise ≠ .pending := by
  cases h with
  | settles _ hpending => exact absurd hpending hp
  | advances _ _ hr => exact hr.promise ▸ hp
  | leaves => exact hp

theorem run_cons {rest : List Move} (h : run (m :: rest) σ = some σ') :
    ∃ σ₁, step m σ = some σ₁ ∧ run rest σ₁ = some σ' := Option.bind_eq_some_iff.1 h

/-- Once the promise is settled, only so many steps are left. -/
theorem length_add_work_le {moves : List Move} (h : run moves σ = some σ')
    (hp : σ.shared.promise ≠ .pending) : moves.length + σ'.work ≤ σ.work := by
  induction moves generalizing σ with
  | nil =>
    obtain rfl := Option.some.inj h
    simp
  | cons m rest ih =>
    obtain ⟨σ₁, hm, hrest⟩ := run_cons h
    have hs := step_of_step hm
    have hlt := hs.work_lt hp
    have hle := ih hrest (hs.promise_ne_pending hp)
    rw [List.length_cons]
    omega

/-- A reader waits only while another fills the cache, once the promise is settled. -/
theorem of_stepThread_eq_none (h : stepThread s t = none) (hreads : t.reads ≠ [])
    (hp : s.promise ≠ .pending) : t.stage = .claim ∧ s.cache = none ∧ s.claimed = true := by
  cases hr : t.reads with
  | nil => exact absurd hr hreads
  | cons r rest =>
    rw [stepThread, hr] at h
    change stepRead s t r = none at h
    unfold stepRead at h
    split at h
    · cases h
    · cases h
    · cases h
    · next hs =>
      split at h
      · cases h
      · next hc =>
        split at h
        · next hclaimed => exact ⟨hs, hc, hclaimed⟩
        · cases h
    · split at h
      · cases h
      · next _ hpending => exact absurd hpending hp
      · cases h
    · cases h

/-- No reader can take a step. -/
def State.Stuck (σ : State) : Prop := ∀ i, step (.advance i) σ = none

theorem State.Stuck.stepThread (h : σ.Stuck) (hi : σ.threads[i]? = some t) :
    stepThread σ.shared t = none := by
  cases hs : Handover.stepThread σ.shared t with
  | none => rfl
  | some next =>
    have hnone := h i
    simp [step, hi, hs] at hnone

/-- Once the promise is settled, readers stop only when all their reads have ended. -/
theorem Inv.reads_eq_nil {reads : List (List Read)} (h : Inv reads σ)
    (hp : σ.shared.promise ≠ .pending) (hstuck : σ.Stuck) : ∀ t ∈ σ.threads, t.reads = [] := by
  -- the reader that fills the cache could go on
  have nobody {j : Nat} {u : Thread} (hj : σ.threads[j]? = some u) : ¬ u.Fills := by
    intro hu
    have hreads : u.reads ≠ [] := by
      intro hnil
      have hstart := (h.ok u (List.mem_of_getElem? hj)).idle hnil
      simp [Thread.Fills, hstart] at hu
    obtain ⟨hclaim, -, -⟩ := of_stepThread_eq_none (hstuck.stepThread hj) hreads hp
    simp [Thread.Fills, hclaim] at hu
  intro t ht
  obtain ⟨i, hi⟩ := List.getElem?_of_mem ht
  by_cases hreads : t.reads = []
  · exact hreads
  · obtain ⟨-, hc, hcl⟩ := of_stepThread_eq_none (hstuck.stepThread hi) hreads hp
    cases h.phase with
    | untouched hcl' => simp [hcl] at hcl'
    | claimed j u hj hu => exact absurd (.inl hu) (nobody hj)
    | taken j u v hj hu => exact absurd (.inr ⟨v, hu⟩) (nobody hj)
    | published v _ hc' => simp [hc] at hc'

/-! ## The laws -/

def Move.isProducer : Move → Bool
  | .deliver _ | .drop => true
  | .advance _ | .leave _ => false

/-- The move that made the promise what it is. -/
def Promise.move? : Promise → Option Move
  | .pending => none
  | .delivered v | .refused v => some (.deliver v)
  | .dropped => some .drop

/-- What holds after the given moves, for readers with the given reads. -/
structure HandoverLaws (reads : List (List Read)) (moves : List Move) (σ : State) : Prop where
  /-- The producer makes one move at most, and it makes the promise what it is. -/
  producer : moves.filter Move.isProducer = σ.shared.promise.move?.toList
  /-- A delivery fails only if all readers have left. -/
  refused : ∀ v, σ.shared.promise = .refused v → ∀ t ∈ σ.threads, t.attached = false
  /-- The channel is received from at most once. -/
  received_once : σ.shared.received ≤ 1
  /-- Every read that ends with a value ends with the same one: the one that was delivered, else the
  abandoned error. -/
  answers : ∀ t ∈ σ.threads, ∀ r v, (r, some v) ∈ t.answers → σ.shared.promise.outcome? = some v
  /-- A read that waits does not end without a value. -/
  waited : ∀ t ∈ σ.threads, (.await, none) ∉ t.answers
  /-- Every reader does its reads in their order. -/
  scripts : σ.threads.map Thread.script = reads
  /-- A delivered value is not lost: it is in the channel, with the reader that publishes it, or in
  the cache. -/
  kept : ∀ v, σ.shared.promise = .delivered v → σ.shared.channel = some v ∨
    (∃ t ∈ σ.threads, t.stage = .publish v) ∨ σ.shared.cache = some v
  /-- After the producer's move, only so many steps are left. -/
  bounded : σ.shared.promise ≠ .pending →
    ∀ more σ', run more σ = some σ' → more.length + σ'.work ≤ σ.work
  /-- When no reader can go on then, all reads have ended, and those that wait with the value. -/
  served : ∀ v, σ.shared.promise.outcome? = some v → σ.Stuck →
    ∀ t ∈ σ.threads, t.reads = [] ∧ ∀ answer, (.await, answer) ∈ t.answers → answer = some v
  /-- What the producer and the readers see is a life of one future that is read in single steps. -/
  life : ScriptValues.Stage.Life (.deferred :: history moves (State.ofReads reads)) σ.stage

/-- The producer's one move settles the promise. -/
theorem Step.producer (h : Step σ m σ') :
    σ.shared.promise.move?.toList ++ [m].filter Move.isProducer =
      σ'.shared.promise.move?.toList := by
  cases h with
  | @settles m outcome hm hp =>
    rw [hp]
    cases m with
    | deliver v =>
      obtain rfl : σ.outcome v = outcome := by simpa [Move.outcome?] using hm
      rw [State.outcome]
      split <;> rfl
    | drop =>
      obtain rfl : .dropped = outcome := by simpa [Move.outcome?] using hm
      rfl
    | advance | leave => cases hm
  | advances _ _ hr =>
    show _ = (Promise.move? _).toList
    rw [hr.promise]
    exact List.append_nil _
  | leaves => exact List.append_nil _

/-- A run preserves the invariant, and is a stretch of the life of the future. -/
theorem Inv.run {reads : List (List Read)} {moves : List Move} (h : Inv reads σ)
    (hrun : run moves σ = some σ') :
    Inv reads σ' ∧ ScriptValues.Stage.Steps σ.stage (history moves σ) σ'.stage ∧
      σ.shared.promise.move?.toList ++ moves.filter Move.isProducer =
        σ'.shared.promise.move?.toList := by
  induction moves generalizing σ with
  | nil =>
    obtain rfl := Option.some.inj hrun
    exact ⟨h, .refl, List.append_nil _⟩
  | cons m rest ih =>
    obtain ⟨σ₁, hm, hrest⟩ := run_cons hrun
    have hs := step_of_step hm
    obtain ⟨hinv, hsteps, hproducer⟩ := ih (h.step hs) hrest
    refine ⟨hinv, ?_, ?_⟩
    · rw [history, hm]
      exact (h.steps hs).trans hsteps
    · rw [← hproducer, ← hs.producer, List.append_assoc, ← List.filter_append]
      rfl

theorem Phase.kept (h : Phase s threads) (hp : s.promise = .delivered v) :
    s.channel = some v ∨ (∃ t ∈ threads, t.stage = .publish v) ∨ s.cache = some v := by
  have ho : s.promise.outcome? = some v := by rw [hp]; rfl
  cases h with
  | untouched _ _ hch => exact .inl (by rw [hch, hp]; rfl)
  | claimed _ _ _ _ _ _ hch => exact .inl (by rw [hch, hp]; rfl)
  | taken i t w hi ht _ _ _ hw =>
    obtain rfl : w = v := Option.some.inj (hw.symm.trans ho)
    exact .inr (.inl ⟨t, List.mem_of_getElem? hi, ht⟩)
  | published w _ hc _ hw =>
    obtain rfl : w = v := Option.some.inj (hw.symm.trans ho)
    exact .inr (.inr hc)

/-- Whatever the order of the steps, readers of one future agree. -/
theorem handoverLaws_of_run (reads : List (List Read)) (moves : List Move) (σ : State)
    (hrun : run moves (State.ofReads reads) = some σ) : HandoverLaws reads moves σ := by
  obtain ⟨hinv, hsteps, hproducer⟩ := (inv_ofReads reads).run hrun
  have hanswers : ∀ t ∈ σ.threads, ∀ r v, (r, some v) ∈ t.answers →
      σ.shared.promise.outcome? = some v := fun t ht r v hv =>
    hinv.phase.outcome_of_cache ((hinv.ok t ht).answered r v hv)
  have hwaited : ∀ t ∈ σ.threads, (.await, none) ∉ t.answers := fun t ht => (hinv.ok t ht).waited
  exact {
    producer := hproducer
    refused := fun v hv t ht => by
      have hfalse := hinv.refused v hv
      cases ha : t.attached with
      | false => rfl
      | true => simp [attached_of_mem ht ha] at hfalse
    received_once := hinv.phase.received_le
    answers := hanswers
    waited := hwaited
    scripts := hinv.scripts
    kept := fun v hv => hinv.phase.kept hv
    bounded := fun hp more σ' hmore => length_add_work_le hmore hp
    served := by
      intro v hv hstuck t ht
      have hp : σ.shared.promise ≠ .pending := fun hp => by simp [hp, Promise.outcome?] at hv
      refine ⟨hinv.reads_eq_nil hp hstuck t ht, fun answer hmem => ?_⟩
      cases answer with
      | none => exact absurd hmem (hwaited t ht)
      | some w => rw [← hv, hanswers t ht _ w hmem]
    life := (ScriptValues.Stage.Steps.single .deferred).trans (by
      -- a future that nobody holds is released before anything else happens
      cases hstart : (State.ofReads reads).attached with
      | true =>
        have hstage := State.stage_of_pending (inv_ofReads reads).phase rfl
        rw [hstart, if_pos rfl] at hstage
        exact hstage ▸ hsteps
      | false =>
        have hstage := State.stage_of_pending (inv_ofReads reads).phase rfl
        rw [hstart, if_neg (by simp)] at hstage
        exact (ScriptValues.Stage.Steps.release .refl).trans (hstage ▸ hsteps)) }

/-- A try and a read that waits both pass the first look before the delivery. -/
theorem handoverLaws_of_race :
    ∃ σ, run [.advance 0, .advance 1, .deliver (.int 7), .advance 1, .advance 0, .advance 1,
        .advance 0, .advance 0, .advance 1, .advance 1, .leave 0]
        (State.ofReads [[.await], [.tryRead, .await]]) = some σ ∧
      HandoverLaws [[.await], [.tryRead, .await]]
        [.advance 0, .advance 1, .deliver (.int 7), .advance 1, .advance 0, .advance 1,
          .advance 0, .advance 0, .advance 1, .advance 1, .leave 0] σ :=
  ⟨⟨⟨.delivered (.int 7), none, some (.int 7), true, 1⟩,
      [⟨.start, [], [(.await, some (.int 7))], false⟩,
        ⟨.start, [], [(.tryRead, some (.int 7)), (.await, some (.int 7))], true⟩]⟩,
    rfl, handoverLaws_of_run _ _ _ rfl⟩

end Handover

end ScriptValues
