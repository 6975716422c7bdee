import ScriptValues.Proofs.ConcurrentReads

/-!
# Tries that begin after the delivery

A try looks in two places: first in the cache, then in the channel. The value goes the other way
through the hands of another reader, which takes it from the channel and then fills the cache. A try
whose first look is too early and whose second is too late finds the value in neither place. It ends
without an answer, even if the value had been delivered before the try began.

* `Step.reader`, `exists_own_step`: one reader among the steps of all.
* `Missed`: the two looks of a try that are too early and too late.
* `unanswered_iff_missed`: a try that begins after the delivery has the value, unless both looks
  miss.
* `late_try_unanswered`: there is such a try.
-/

namespace ScriptValues

namespace Handover

variable {s s' : Shared} {t t' : Thread} {r : Read} {v : Value} {i n : Nat} {σ σ' τ τ' : State}
  {m : Move} {moves more : List Move}

/-! ## One reader among the steps of all -/

/-- What a step is to one reader: a step of its next read, its leaving, or a step of others. -/
theorem Step.reader (h : Step σ m σ') (hi : σ.threads[i]? = some t) :
    (m ≠ .advance i ∧ σ'.threads[i]? = some t) ∨
      (∃ r s' t', m = .advance i ∧ t.reads.head? = some r ∧ ReadStep σ.shared t r s' t' ∧
        σ'.threads[i]? = some t') ∨
      m = .leave i ∧ t.reads = [] ∧ σ'.threads[i]? = some { t with attached := false } := by
  cases h with
  | settles hm =>
    refine .inl ⟨?_, hi⟩
    rintro rfl
    cases hm
  | @advances j u u' r rest s' hj hreads hr =>
    by_cases hji : j = i
    · subst hji
      obtain rfl := Option.some.inj (hj.symm.trans hi)
      refine .inr (.inl ⟨r, s', u', rfl, by rw [hreads, List.head?_cons], hr, ?_⟩)
      rw [getElem?_set_of_getElem? hj, if_pos rfl]
    · refine .inl ⟨fun heq => hji (Move.advance.inj heq), ?_⟩
      rw [getElem?_set_of_getElem? hj, if_neg hji, hi]
  | @leaves j u hj hnil =>
    by_cases hji : j = i
    · subst hji
      obtain rfl := Option.some.inj (hj.symm.trans hi)
      refine .inr (.inr ⟨rfl, hnil, ?_⟩)
      rw [getElem?_set_of_getElem? hj, if_pos rfl]
    · refine .inl ⟨nofun, ?_⟩
      rw [getElem?_set_of_getElem? hj, if_neg hji, hi]

/-- The steps of others leave a reader that has something to read as it is. -/
theorem Step.others (h : Step σ m σ') (hm : m ≠ .advance i) (hi : σ.threads[i]? = some t)
    (hreads : t.reads ≠ []) : σ'.threads[i]? = some t := by
  rcases h.reader hi with ⟨-, hi'⟩ | ⟨_, _, _, hown, -⟩ | ⟨-, hnil, -⟩
  · exact hi'
  · exact absurd hown hm
  · exact absurd hnil hreads

theorem run_others (h : run moves σ = some σ') (hmoves : ∀ m ∈ moves, m ≠ .advance i)
    (hi : σ.threads[i]? = some t) (hreads : t.reads ≠ []) : σ'.threads[i]? = some t := by
  induction moves generalizing σ with
  | nil =>
    obtain rfl := Option.some.inj h
    exact hi
  | cons m rest ih =>
    obtain ⟨σ₁, hm, hrest⟩ := run_cons h
    have hother := (step_of_step hm).others (hmoves m List.mem_cons_self) hi hreads
    exact ih hrest (fun m hm => hmoves m (List.mem_cons_of_mem _ hm)) hother

theorem run_append (before after : List Move) (σ : State) :
    run (before ++ after) σ = (run before σ).bind (run after) := by
  induction before generalizing σ with
  | nil => rfl
  | cons m rest ih =>
    show (step m σ).bind (run (rest ++ after)) = ((step m σ).bind (run rest)).bind (run after)
    rw [Option.bind_assoc]
    exact congrArg _ (funext ih)

/-- A run up to a move, the step that it makes, and the run behind it. -/
theorem run_split {before after : List Move} (h : run (before ++ m :: after) σ = some σ') :
    ∃ τ τ₁, run before σ = some τ ∧ step m τ = some τ₁ ∧ run after τ₁ = some σ' := by
  rw [run_append] at h
  obtain ⟨τ, hbefore, h⟩ := Option.bind_eq_some_iff.1 h
  obtain ⟨τ₁, hm, hafter⟩ := run_cons h
  exact ⟨τ, τ₁, hbefore, hm, hafter⟩

/-- A reader that has changed took a step, and before the first one it was as at the start. -/
theorem exists_own_step (h : run moves σ = some σ') (hi : σ.threads[i]? = some t)
    (hreads : t.reads ≠ []) (hchanged : σ'.threads[i]? ≠ some t) :
    ∃ before after τ τ₁, moves = before ++ .advance i :: after ∧ (∀ m ∈ before, m ≠ .advance i) ∧
      run before σ = some τ ∧ τ.threads[i]? = some t ∧ step (.advance i) τ = some τ₁ ∧
      run after τ₁ = some σ' := by
  by_cases hmem : .advance i ∈ moves
  · obtain ⟨before, after, rfl, hnot⟩ := List.eq_append_cons_of_mem hmem
    obtain ⟨τ, τ₁, hbefore, hstep, hafter⟩ := run_split h
    have hothers : ∀ m ∈ before, m ≠ .advance i := fun m hm heq => hnot (heq ▸ hm)
    exact ⟨before, after, τ, τ₁, rfl, hothers, hbefore, run_others hbefore hothers hi hreads,
      hstep, hafter⟩
  · exact absurd (run_others h (fun m hm heq => hmem (heq ▸ hm)) hi hreads) hchanged

/-- What the steps of a reader preserve holds of it after any run. -/
theorem run_reader {p : Thread → Prop}
    (hread : ∀ {s s' t t' r}, p t → ReadStep s t r s' t' → p t')
    (hleave : ∀ {t : Thread}, p t → p { t with attached := false })
    (h : run moves σ = some σ') (hi : σ.threads[i]? = some t) (ht : p t) :
    ∃ t', σ'.threads[i]? = some t' ∧ p t' := by
  induction moves generalizing σ t with
  | nil =>
    obtain rfl := Option.some.inj h
    exact ⟨t, hi, ht⟩
  | cons m rest ih =>
    obtain ⟨σ₁, hm, hrest⟩ := run_cons h
    have hnext : ∃ t₁, σ₁.threads[i]? = some t₁ ∧ p t₁ := by
      rcases (step_of_step hm).reader hi with ⟨-, hi₁⟩ | ⟨r, s', t₁, -, -, hr, hi₁⟩ | ⟨-, -, hi₁⟩
      · exact ⟨t, hi₁, ht⟩
      · exact ⟨t₁, hi₁, hread ht hr⟩
      · exact ⟨_, hi₁, hleave ht⟩
    obtain ⟨t₁, hi₁, ht₁⟩ := hnext
    exact ih hrest hi₁ ht₁

/-! ## Answers -/

/-- A step adds to the answers and leaves those that are there. -/
theorem ReadStep.answered {answer : Read × Option Value} (h : ReadStep s t r s' t')
    (ht : t.answers[n]? = some answer) : t'.answers[n]? = some answer := by
  obtain ⟨hn, -⟩ := List.getElem?_eq_some_iff.1 ht
  cases h with
  | found | empty | publishes =>
    show (t.answers ++ [_])[n]? = some answer
    rw [List.getElem?_append_left hn, ht]
  | _ => exact ht

/-- An answer stays. -/
theorem run_answered {answer : Read × Option Value} (h : run moves σ = some σ')
    (hi : σ.threads[i]? = some t) (ht : t.answers[n]? = some answer) :
    ∃ t', σ'.threads[i]? = some t' ∧ t'.answers[n]? = some answer :=
  run_reader (fun ht hr => hr.answered ht) id h hi ht

/-- The answer of a read that was just finished. -/
theorem Thread.getElem?_answers_finish (h : t.answers.length = n) (r : Read)
    (answer : Option Value) : (t.finish r answer).answers[n]? = some (r, answer) := by
  show (t.answers ++ [(r, answer)])[n]? = some (r, answer)
  rw [← h, List.getElem?_concat_length]

/-- Read number `n` of a reader has its value, or is past the test of the channel. -/
def Thread.Served (n : Nat) (t : Thread) : Prop :=
  (t.answers.length = n ∧ t.stage ≠ .start ∧ t.stage ≠ .test) ∨
    ∃ r v, t.answers[n]? = some (r, some v)

/-- A read that is past the test of the channel does not end without a value. -/
theorem ReadStep.served (h : ReadStep s t r s' t') (ht : t.Served n) : t'.Served n := by
  rcases ht with ⟨hn, hstart, htest⟩ | ⟨r', v, hv⟩
  · cases h with
    | found | publishes => exact .inr ⟨r, _, Thread.getElem?_answers_finish hn r _⟩
    | waits hs | tries hs => exact absurd hs hstart
    | empty hs | full hs => exact absurd hs htest
    | looked | claims | takes | givesUp => exact .inl ⟨hn, by simp, by simp⟩
  · exact .inr ⟨r', v, h.answered hv⟩

/-! ## The two looks of a try -/

/-- A step of a reader whose next read is a try is a step of that try. -/
theorem Step.ofTry (h : Step σ (.advance i) σ') (hi : σ.threads[i]? = some t)
    (htry : t.reads.head? = some .tryRead) :
    ∃ s' t', ReadStep σ.shared t .tryRead s' t' ∧ σ'.threads[i]? = some t' := by
  rcases h.reader hi with ⟨hne, -⟩ | ⟨r, s', t', -, hr, hread, hi'⟩ | ⟨hleave, -⟩
  · exact absurd rfl hne
  · obtain rfl := Option.some.inj (hr.symm.trans htry)
    exact ⟨s', t', hread, hi'⟩
  · cases hleave

/-- A try begins with a look in the cache. -/
theorem Step.look (h : Step σ (.advance i) σ') (hi : σ.threads[i]? = some t)
    (hstart : t.stage = .start) (htry : t.reads.head? = some .tryRead) :
    (∃ v, σ.shared.cache = some v ∧ σ'.threads[i]? = some (t.finish .tryRead (some v))) ∨
      σ.shared.cache = none ∧ σ'.threads[i]? = some { t with stage := .test } := by
  obtain ⟨s', t', hr, hi'⟩ := h.ofTry hi htry
  cases hr with
  | found _ hc => exact .inl ⟨_, hc, hi'⟩
  | tries _ _ hc => exact .inr ⟨hc, hi'⟩
  | waits _ hawait => cases hawait
  | empty hs | full hs | looked hs | claims hs | takes hs | givesUp hs | publishes hs =>
    rw [hs] at hstart
    cases hstart

/-- After that a try tests whether the channel is empty. -/
theorem Step.test (h : Step σ (.advance i) σ') (hi : σ.threads[i]? = some t)
    (htest : t.stage = .test) (htry : t.reads.head? = some .tryRead) :
    (σ.shared.channel = none ∧ σ'.threads[i]? = some (t.finish .tryRead none)) ∨
      σ.shared.channel ≠ none ∧ σ'.threads[i]? = some { t with stage := .look } := by
  obtain ⟨s', t', hr, hi'⟩ := h.ofTry hi htry
  cases hr with
  | empty _ hc => exact .inl ⟨hc, hi'⟩
  | full _ hc => exact .inr ⟨by simp [hc], hi'⟩
  | found hs => simp [htest] at hs
  | waits hs | tries hs | looked hs | claims hs | takes hs | givesUp hs | publishes hs =>
    rw [hs] at htest
    cases htest

/-! ## Tries that begin after the delivery -/

/-- The first look of reader `i` comes before the cache is filled, and the second after the channel
was emptied. -/
def Missed (i : Nat) (σ : State) (moves : List Move) : Prop :=
  ∃ before between after τ τ', moves = before ++ .advance i :: (between ++ .advance i :: after) ∧
    (∀ m ∈ before, m ≠ .advance i) ∧ (∀ m ∈ between, m ≠ .advance i) ∧
    run before σ = some τ ∧ τ.shared.cache = none ∧
    run (.advance i :: between) τ = some τ' ∧ τ'.shared.channel = none

/-- After some moves `v` was delivered, and reader `i` is about to begin a try. After more moves
that try has ended with this answer. -/
structure LateTry (reads : List (List Read)) (moves more : List Move) (i : Nat) (v : Value)
    (answer : Option Value) (σ σ' : State) (t t' : Thread) : Prop where
  before : run moves (State.ofReads reads) = some σ
  delivered : σ.shared.promise = .delivered v
  reader : σ.threads[i]? = some t
  start : t.stage = .start
  tries : t.reads.head? = some .tryRead
  after : run more σ = some σ'
  readerAfter : σ'.threads[i]? = some t'
  answered : t'.answers[t.answers.length]? = some (.tryRead, answer)

theorem Step.delivered (h : Step σ m σ') (hp : σ.shared.promise = .delivered v) :
    σ'.shared.promise = .delivered v := by
  cases h with
  | settles _ hpending =>
    rw [hp] at hpending
    cases hpending
  | advances _ _ hr => exact hr.promise.trans hp
  | leaves => exact hp

theorem run_delivered (h : run moves σ = some σ') (hp : σ.shared.promise = .delivered v) :
    σ'.shared.promise = .delivered v := by
  induction moves generalizing σ with
  | nil =>
    obtain rfl := Option.some.inj h
    exact hp
  | cons m rest ih =>
    obtain ⟨σ₁, hm, hrest⟩ := run_cons h
    exact ih hrest ((step_of_step hm).delivered hp)

namespace LateTry

variable {reads : List (List Read)} {answer : Option Value}

theorem reads_ne_nil (h : LateTry reads moves more i v answer σ σ' t t') : t.reads ≠ [] := by
  intro hnil
  have htries := h.tries
  rw [hnil] at htries
  cases htries

/-- A reader whose try has not ended is not where it has ended. -/
theorem ne_of_length_eq (h : LateTry reads moves more i v answer σ σ' t t') {u : Thread}
    (hu : u.answers.length = t.answers.length) : σ'.threads[i]? ≠ some u := by
  intro hi
  obtain rfl := Option.some.inj (h.readerAfter.symm.trans hi)
  have hanswered := h.answered
  rw [← hu, List.getElem?_eq_none (Nat.le_refl _)] at hanswered
  cases hanswered

/-- What the reader answered on the way is the answer of the try. -/
theorem answer_of_run {τ : State} {u : Thread} {r : Read} {a : Option Value}
    (h : LateTry reads moves more i v answer σ σ' t t') {rest : List Move}
    (hrun : run rest τ = some σ') (hi : τ.threads[i]? = some u)
    (hu : u.answers[t.answers.length]? = some (r, a)) : answer = a := by
  obtain ⟨u', hi', hu'⟩ := run_answered hrun hi hu
  obtain rfl := Option.some.inj (hi'.symm.trans h.readerAfter)
  exact (Prod.mk.inj (Option.some.inj (h.answered.symm.trans hu'))).2

/-- A try with an answer has the value that was delivered. -/
theorem eq_none_or_eq_some (h : LateTry reads moves more i v answer σ σ' t t') :
    answer = none ∨ answer = some v := by
  obtain ⟨hinv, -⟩ := (inv_ofReads reads).run h.before
  obtain ⟨hinv', -⟩ := hinv.run h.after
  cases ha : answer with
  | none => exact .inl rfl
  | some w =>
    have hanswer := List.mem_of_getElem? (ha ▸ h.answered)
    have hok := hinv'.ok t' (List.mem_of_getElem? h.readerAfter)
    have houtcome := hinv'.phase.outcome_of_cache (hok.answered _ w hanswer)
    rw [run_delivered h.after h.delivered] at houtcome
    exact .inr houtcome.symm

/-- A try without an answer missed the value with both looks. -/
theorem missed (h : LateTry reads moves more i v none σ σ' t t') : Missed i σ more := by
  obtain ⟨before, rest, τ, τ₁, rfl, hbefore, hrun, hi, hlook, hrest⟩ :=
    exists_own_step h.after h.reader h.reads_ne_nil (h.ne_of_length_eq rfl)
  rcases (step_of_step hlook).look hi h.start h.tries with ⟨w, -, hfound⟩ | ⟨hcache, hi₁⟩
  · cases h.answer_of_run hrest hfound (Thread.getElem?_answers_finish rfl _ _)
  · obtain ⟨between, after, τ', τ₂, rfl, hbetween, hrun', hi', htest, hafter⟩ :=
      exists_own_step hrest hi₁ h.reads_ne_nil (h.ne_of_length_eq rfl)
    refine ⟨before, between, after, τ, τ', rfl, hbefore, hbetween, hrun, hcache, ?_, ?_⟩
    · show (step (.advance i) τ).bind (run between) = some τ'
      rw [hlook, Option.bind_some, hrun']
    · rcases (step_of_step htest).test hi' rfl h.tries with ⟨hchannel, -⟩ | ⟨-, hi₂⟩
      · exact hchannel
      · -- a try that found the channel full goes on until it has the value
        have hserved : Thread.Served t.answers.length { t with stage := .look } :=
          .inl ⟨rfl, by simp, by simp⟩
        obtain ⟨u, hu, hend⟩ := run_reader (fun ht hr => hr.served ht) id hafter hi₂ hserved
        rcases hend with ⟨hlength, -⟩ | ⟨r, w, hw⟩
        · exact absurd hu (h.ne_of_length_eq hlength)
        · have hdone : run [] σ' = some σ' := rfl
          cases h.answer_of_run hdone hu hw

/-- A try that missed the value with both looks has no answer. -/
theorem eq_none_of_missed (h : LateTry reads moves more i v answer σ σ' t t')
    (hmissed : Missed i σ more) : answer = none := by
  obtain ⟨before, between, after, τ, τ', rfl, hbefore, hbetween, hrun, hcache, hrun', hchannel⟩ :=
    hmissed
  have hi := run_others hrun hbefore h.reader h.reads_ne_nil
  obtain ⟨τ₁, hlook, hrun'⟩ := run_cons hrun'
  rcases (step_of_step hlook).look hi h.start h.tries with ⟨w, hw, -⟩ | ⟨-, hi₁⟩
  · rw [hcache] at hw
    cases hw
  · have hi' := run_others hrun' hbetween hi₁ h.reads_ne_nil
    have hafter := h.after
    rw [run_append, hrun, Option.bind_some] at hafter
    obtain ⟨τ₁', hlook', hafter⟩ := run_cons hafter
    obtain rfl := Option.some.inj (hlook.symm.trans hlook')
    rw [run_append, hrun', Option.bind_some] at hafter
    obtain ⟨τ₂, htest, hafter⟩ := run_cons hafter
    rcases (step_of_step htest).test hi' rfl h.tries with ⟨-, hnone⟩ | ⟨hfull, -⟩
    · exact h.answer_of_run hafter hnone (Thread.getElem?_answers_finish rfl _ _)
    · exact absurd hchannel hfull

end LateTry

/-- A try that begins after the delivery has the value that was delivered, unless its looks are too
early and too late. Then, and only then, it has no answer. -/
theorem unanswered_iff_missed {reads : List (List Read)} {answer : Option Value}
    (h : LateTry reads moves more i v answer σ σ' t t') :
    (answer = none ∨ answer = some v) ∧ (answer = none ↔ Missed i σ more) := by
  refine ⟨h.eq_none_or_eq_some, ?_⟩
  constructor
  · rintro rfl
    exact h.missed
  · exact h.eq_none_of_missed

/-- The other reader takes the value and even publishes it between the two looks of the try. -/
theorem unanswered_although_published : ∃ σ σ' t t',
    LateTry [[.await], [.tryRead]] [.deliver (.int 7), .advance 0]
      [.advance 1, .advance 0, .advance 0, .advance 0, .advance 1] 1 (.int 7) none σ σ' t t' ∧
    σ'.shared.cache = some (.int 7) ∧
    Missed 1 σ [.advance 1, .advance 0, .advance 0, .advance 0, .advance 1] := by
  have hlate : ∃ σ σ' t t', LateTry [[.await], [.tryRead]] [.deliver (.int 7), .advance 0]
      [.advance 1, .advance 0, .advance 0, .advance 0, .advance 1] 1 (.int 7) none σ σ' t t' ∧
      σ'.shared.cache = some (.int 7) :=
    ⟨_, _, _, _, ⟨rfl, rfl, rfl, rfl, rfl, rfl, rfl, rfl⟩, rfl⟩
  obtain ⟨σ, σ', t, t', h, hcache⟩ := hlate
  exact ⟨σ, σ', t, t', h, hcache, (unanswered_iff_missed h).2.1 rfl⟩

/-- A try that begins after the delivery, while another reader holds the value that it took and has
not published, ends without an answer. -/
theorem late_try_unanswered : ∃ σ σ' t t',
    LateTry [[.await], [.tryRead]] [.deliver (.int 7), .advance 0, .advance 0, .advance 0]
      [.advance 1, .advance 1] 1 (.int 7) none σ σ' t t' :=
  ⟨_, _, _, _, rfl, rfl, rfl, rfl, rfl, rfl, rfl, rfl⟩

end Handover

end ScriptValues
