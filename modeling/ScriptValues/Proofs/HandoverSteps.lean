import ScriptValues.Futures.Handover

/-!
# The steps of concurrent readers

One producer and any number of readers, whose steps come in any order. The value goes through one
thread at a time: from the channel to the reader that claimed to fill the cache, and from there to
the cache.

* `ReadStep`, `Step`: everything that one step can do.
* `Phase`: where the value is, and who fills the cache.
* `Thread.Ok`: what a reader knows at each stage of a read.
* `Inv.step`: every step preserves the invariant that these are parts of.
-/

namespace ScriptValues

namespace Handover

variable {s s' : Shared} {t t' : Thread} {threads : List Thread} {r : Read} {v : Value} {i : Nat}
  {σ σ' : State} {m : Move}

/-! ## What a step can do -/

/-- What one step of a reader does to what is shared and to the reader. -/
inductive ReadStep (s : Shared) (t : Thread) (read : Read) : Shared → Thread → Prop
  /-- A look finds the value in the cache. -/
  | found {v : Value} : t.stage = .start ∨ t.stage = .look ∨ t.stage = .claim →
      s.cache = some v → ReadStep s t read s (t.finish read (some v))
  /-- A read that waits goes on to the claim. -/
  | waits : t.stage = .start → read = .await → s.cache = none →
      ReadStep s t read s { t with stage := .claim }
  /-- A try goes on to test the channel. -/
  | tries : t.stage = .start → read = .tryRead → s.cache = none →
      ReadStep s t read s { t with stage := .test }
  /-- A try that tests an empty channel has no answer. -/
  | empty : t.stage = .test → s.channel = none → ReadStep s t read s (t.finish read none)
  /-- A try that tests a full channel looks again. -/
  | full {v : Value} : t.stage = .test → s.channel = some v →
      ReadStep s t read s { t with stage := .look }
  /-- A try that looked again goes on to the claim. -/
  | looked : t.stage = .look → s.cache = none → ReadStep s t read s { t with stage := .claim }
  /-- The reader is the one to fill the cache. -/
  | claims : t.stage = .claim → s.cache = none → s.claimed = false →
      ReadStep s t read { s with claimed := true } { t with stage := .receive }
  /-- The reader takes the value from the channel. -/
  | takes {v : Value} : t.stage = .receive → s.channel = some v →
      ReadStep s t read { s with channel := none, received := s.received + 1 }
        { t with stage := .publish v }
  /-- The reader learns that no value will come. -/
  | givesUp : t.stage = .receive → s.channel = none → s.promise ≠ .pending →
      ReadStep s t read { s with received := s.received + 1 }
        { t with stage := .publish abandonedValue }
  /-- The reader fills the cache. -/
  | publishes {v : Value} : t.stage = .publish v →
      ReadStep s t read { s with cache := some v } (t.finish read (some v))

theorem readStep_of_stepRead (h : stepRead s t r = some (s', t')) :
    ReadStep s t r s' t' := by
  unfold stepRead at h
  split at h
  · next hs =>
    obtain ⟨rfl, rfl⟩ := Prod.mk.inj (Option.some.inj h)
    cases hc : s.cache with
    | some v => simpa only [lookOr, hc] using .found (.inl hs) hc
    | none =>
      cases r with
      | await => simpa [lookOr, hc] using .waits hs rfl hc
      | tryRead => simpa [lookOr, hc] using .tries hs rfl hc
  · next hs =>
    obtain ⟨rfl, rfl⟩ := Prod.mk.inj (Option.some.inj h)
    cases hc : s.channel with
    | some v => simpa using .full hs hc
    | none => simpa using .empty hs hc
  · next hs =>
    obtain ⟨rfl, rfl⟩ := Prod.mk.inj (Option.some.inj h)
    cases hc : s.cache with
    | some v => simpa only [lookOr, hc] using .found (.inr (.inl hs)) hc
    | none => simpa only [lookOr, hc] using .looked hs hc
  · next hs =>
    split at h
    · next v hc =>
      obtain ⟨rfl, rfl⟩ := Prod.mk.inj (Option.some.inj h)
      exact .found (.inr (.inr hs)) hc
    · next hc =>
      split at h
      · cases h
      · next hclaimed =>
        obtain ⟨rfl, rfl⟩ := Prod.mk.inj (Option.some.inj h)
        exact .claims hs hc (by simpa using hclaimed)
  · next hs =>
    split at h
    · next v p hc =>
      obtain ⟨rfl, rfl⟩ := Prod.mk.inj (Option.some.inj h)
      exact .takes hs hc
    · cases h
    · next hc hp =>
      obtain ⟨rfl, rfl⟩ := Prod.mk.inj (Option.some.inj h)
      exact .givesUp hs hc hp
  · next v hs =>
    obtain ⟨rfl, rfl⟩ := Prod.mk.inj (Option.some.inj h)
    exact .publishes hs

/-- What a step of the producer makes of the promise. -/
def Move.outcome? (σ : State) : Move → Option Promise
  | .deliver v => some (σ.outcome v)
  | .drop => some .dropped
  | .advance _ | .leave _ => none

/-- What one step does. -/
inductive Step (σ : State) : Move → State → Prop
  | settles {m : Move} {outcome : Promise} : m.outcome? σ = some outcome →
      σ.shared.promise = .pending →
      Step σ m ⟨{ σ.shared with promise := outcome, channel := outcome.content? }, σ.threads⟩
  | advances {i : Nat} {t t' : Thread} {read : Read} {rest : List Read} {s' : Shared} :
      σ.threads[i]? = some t → t.reads = read :: rest → ReadStep σ.shared t read s' t' →
      Step σ (.advance i) ⟨s', σ.threads.set i t'⟩
  | leaves {i : Nat} {t : Thread} : σ.threads[i]? = some t → t.reads = [] →
      t.attached = true →
      Step σ (.leave i) ⟨σ.shared, σ.threads.set i { t with attached := false }⟩

theorem eq_of_settle {outcome : Promise} (h : settle s outcome = some s') :
    s.promise = .pending ∧ s' = { s with promise := outcome, channel := outcome.content? } := by
  unfold settle at h
  split at h
  · next hp => exact ⟨hp, (Option.some.inj h).symm⟩
  · cases h

theorem step_of_step (h : step m σ = some σ') : Step σ m σ' := by
  cases m with
  | deliver v =>
    obtain ⟨s', hs, rfl⟩ := Option.map_eq_some_iff.1 h
    obtain ⟨hp, rfl⟩ := eq_of_settle hs
    exact .settles rfl hp
  | drop =>
    obtain ⟨s', hs, rfl⟩ := Option.map_eq_some_iff.1 h
    obtain ⟨hp, rfl⟩ := eq_of_settle hs
    exact .settles rfl hp
  | advance i =>
    obtain ⟨t, ht, h⟩ := Option.bind_eq_some_iff.1 h
    obtain ⟨⟨s', t'⟩, hr, h⟩ := Option.bind_eq_some_iff.1 h
    obtain rfl := Option.some.inj h
    cases hreads : t.reads with
    | nil => simp [stepThread, hreads] at hr
    | cons read rest =>
      rw [stepThread, hreads] at hr
      exact .advances ht hreads (readStep_of_stepRead hr)
  | leave i =>
    obtain ⟨t, ht, h⟩ := Option.bind_eq_some_iff.1 h
    obtain ⟨t', hl, h⟩ := Option.bind_eq_some_iff.1 h
    obtain rfl := Option.some.inj h
    unfold Thread.leave at hl
    split at hl
    · next hcond =>
      obtain rfl := Option.some.inj hl
      exact .leaves ht hcond.1 hcond.2
    · cases hl

/-! ## Where the value is -/

/-- What every read that waits has to answer, once the promise is settled. -/
def Promise.outcome? : Promise → Option Value
  | .pending => none
  | .delivered v => some v
  | .refused _ | .dropped => some abandonedValue

/-- Whether the reader is the one that fills the cache. -/
def Thread.Fills (t : Thread) : Prop := t.stage = .receive ∨ ∃ v, t.stage = .publish v

/-- No reader fills the cache, except perhaps the given one. -/
def Quiet (threads : List Thread) (except : Option Nat) : Prop :=
  ∀ (j : Nat) (t : Thread), threads[j]? = some t → except ≠ some j → ¬ t.Fills

/-- Where the value is, how often the channel was received from, and who fills the cache. -/
inductive Phase (s : Shared) (threads : List Thread) : Prop
  /-- Nobody has claimed to fill the cache. -/
  | untouched : s.claimed = false → s.cache = none → s.channel = s.promise.content? →
      s.received = 0 → Quiet threads none → Phase s threads
  /-- One reader has claimed to fill the cache, and has not received. -/
  | claimed (i : Nat) (t : Thread) : threads[i]? = some t → t.stage = .receive →
      s.claimed = true → s.cache = none → s.channel = s.promise.content? →
      s.received = 0 → Quiet threads (some i) → Phase s threads
  /-- One reader holds the value that it will publish. -/
  | taken (i : Nat) (t : Thread) (v : Value) : threads[i]? = some t → t.stage = .publish v →
      s.claimed = true → s.cache = none → s.channel = none → s.promise.outcome? = some v →
      s.received = 1 → Quiet threads (some i) → Phase s threads
  /-- The value is in the cache. -/
  | published (v : Value) : s.claimed = true → s.cache = some v → s.channel = none →
      s.promise.outcome? = some v → s.received = 1 → Quiet threads none → Phase s threads

theorem getElem?_set_of_getElem? {l : List Thread} {j : Nat} (h : l[i]? = some t) :
    (l.set i t')[j]? = if i = j then some t' else l[j]? := by
  obtain ⟨hi, -⟩ := List.getElem?_eq_some_iff.1 h
  rw [List.getElem?_set, if_pos hi]

theorem Quiet.set {except : Option Nat} (h : Quiet threads except) (hi : threads[i]? = some t)
    (ht : ¬ t'.Fills) : Quiet (threads.set i t') except := by
  intro j u hj he
  rw [getElem?_set_of_getElem? hi] at hj
  split at hj
  · rwa [← Option.some.inj hj]
  · exact h j u hj he

/-- When the one that fills the cache takes a step, the others stay out. -/
theorem Quiet.set_self (h : Quiet threads (some i)) (hi : threads[i]? = some t) :
    Quiet (threads.set i t') (some i) := by
  intro j u hj he
  rw [getElem?_set_of_getElem? hi, if_neg (by simpa using he)] at hj
  exact h j u hj he

theorem Quiet.claim (h : Quiet threads none) : Quiet threads (some i) :=
  fun j u hj _ => h j u hj (by simp)

theorem Quiet.release (h : Quiet threads (some i)) (hi : threads[i]? = some t) (ht : ¬ t'.Fills) :
    Quiet (threads.set i t') none := by
  intro j u hj _
  rw [getElem?_set_of_getElem? hi] at hj
  split at hj
  · rwa [← Option.some.inj hj]
  · next hne => exact h j u hj (by simpa using hne)

/-- A reader that does not fill the cache can change by itself. -/
theorem Phase.set (h : Phase s threads) (hi : threads[i]? = some t) (ht : ¬ t.Fills)
    (ht' : ¬ t'.Fills) : Phase s (threads.set i t') := by
  have other {j : Nat} {u : Thread} (hj : threads[j]? = some u) (hu : u.Fills) :
      (threads.set i t')[j]? = some u := by
    rw [getElem?_set_of_getElem? hi, if_neg, hj]
    rintro rfl
    rw [hi] at hj
    exact ht (Option.some.inj hj ▸ hu)
  cases h with
  | untouched hcl hca hch hr hq => exact .untouched hcl hca hch hr (hq.set hi ht')
  | claimed j u hj hu hcl hca hch hr hq =>
    exact .claimed j u (other hj (.inl hu)) hu hcl hca hch hr (hq.set hi ht')
  | taken j u v hj hu hcl hca hch hp hr hq =>
    exact .taken j u v (other hj (.inr ⟨v, hu⟩)) hu hcl hca hch hp hr (hq.set hi ht')
  | published v hcl hca hch hp hr hq => exact .published v hcl hca hch hp hr (hq.set hi ht')

/-- Only the one that claimed is about to receive. -/
theorem Phase.of_receive (h : Phase s threads) (hi : threads[i]? = some t)
    (ht : t.stage = .receive) :
    s.claimed = true ∧ s.cache = none ∧ s.channel = s.promise.content? ∧ s.received = 0 ∧
      Quiet threads (some i) := by
  cases h with
  | untouched _ _ _ _ hq => exact absurd (.inl ht) (hq i t hi (by simp))
  | published _ _ _ _ _ _ hq => exact absurd (.inl ht) (hq i t hi (by simp))
  | claimed j u hj hu hcl hca hch hr hq =>
    by_cases hji : j = i
    · exact ⟨hcl, hca, hch, hr, hji ▸ hq⟩
    · exact absurd (.inl ht) (hq i t hi (by simpa using hji))
  | taken j u w hj hu hcl hca hch hp hr hq =>
    by_cases hji : j = i
    · subst hji
      rw [hi] at hj
      rw [← Option.some.inj hj, ht] at hu
      cases hu
    · exact absurd (.inl ht) (hq i t hi (by simpa using hji))

/-- Only the one that received is about to publish, and what it received. -/
theorem Phase.of_publish (h : Phase s threads) (hi : threads[i]? = some t)
    (ht : t.stage = .publish v) :
    s.claimed = true ∧ s.cache = none ∧ s.channel = none ∧ s.promise.outcome? = some v ∧
      s.received = 1 ∧ Quiet threads (some i) := by
  cases h with
  | untouched _ _ _ _ hq => exact absurd (.inr ⟨v, ht⟩) (hq i t hi (by simp))
  | published _ _ _ _ _ _ hq => exact absurd (.inr ⟨v, ht⟩) (hq i t hi (by simp))
  | claimed j u hj hu hcl hca hch hr hq =>
    by_cases hji : j = i
    · subst hji
      rw [hi] at hj
      rw [← Option.some.inj hj, ht] at hu
      cases hu
    · exact absurd (.inr ⟨v, ht⟩) (hq i t hi (by simpa using hji))
  | taken j u w hj hu hcl hca hch hp hr hq =>
    by_cases hji : j = i
    · subst hji
      rw [hi] at hj
      rw [← Option.some.inj hj, ht] at hu
      obtain rfl := Stage.publish.inj hu
      exact ⟨hcl, hca, hch, hp, hr, hq⟩
    · exact absurd (.inr ⟨v, ht⟩) (hq i t hi (by simpa using hji))

/-- While nobody has claimed, nothing was received. -/
theorem Phase.of_unclaimed (h : Phase s threads) (hc : s.claimed = false) :
    s.channel = s.promise.content? ∧ s.received = 0 ∧ Quiet threads none := by
  cases h with
  | untouched _ _ hch hr hq => exact ⟨hch, hr, hq⟩
  | claimed _ _ _ _ hcl => simp [hcl] at hc
  | taken _ _ _ _ _ hcl => simp [hcl] at hc
  | published _ hcl => simp [hcl] at hc

/-- The channel holds what was delivered. -/
theorem Phase.delivered_of_channel (h : Phase s threads) (hc : s.channel = some v) :
    s.promise = .delivered v := by
  have of_content (hch : s.channel = s.promise.content?) : s.promise = .delivered v := by
    rw [hch] at hc
    cases hp : s.promise <;> simp_all [Promise.content?]
  cases h with
  | untouched _ _ hch => exact of_content hch
  | claimed _ _ _ _ _ _ hch => exact of_content hch
  | taken _ _ _ _ _ _ _ hch => simp [hch] at hc
  | published _ _ _ hch => simp [hch] at hc

/-- What is in the cache is what became of the promise. -/
theorem Phase.outcome_of_cache (h : Phase s threads) (hc : s.cache = some v) :
    s.promise.outcome? = some v := by
  cases h with
  | untouched _ hca => simp [hca] at hc
  | claimed _ _ _ _ _ hca => simp [hca] at hc
  | taken _ _ _ _ _ _ hca => simp [hca] at hc
  | published w _ hca _ hp =>
    rw [hca] at hc
    rw [hp, hc]

theorem Phase.received_le (h : Phase s threads) : s.received ≤ 1 := by
  cases h <;> omega

/-- A settled promise is all that changes for the readers. -/
theorem Phase.settle {outcome : Promise} (h : Phase s threads) (hp : s.promise = .pending) :
    Phase { s with promise := outcome, channel := outcome.content? } threads := by
  cases h with
  | untouched hcl hca _ hr hq => exact .untouched hcl hca rfl hr hq
  | claimed i t hi ht hcl hca _ hr hq => exact .claimed i t hi ht hcl hca rfl hr hq
  | taken i t v hi ht hcl hca hch ho => simp [hp, Promise.outcome?] at ho
  | published v hcl hca hch ho => simp [hp, Promise.outcome?] at ho

/-- What a reader finds in a settled and untouched channel. -/
theorem outcome_of_content (hp : s.promise ≠ .pending) :
    s.promise.outcome? = some ((s.promise.content?).getD abandonedValue) := by
  cases h : s.promise with
  | pending => exact absurd h hp
  | _ => rfl

theorem Phase.read (h : Phase s threads) (hi : threads[i]? = some t)
    (hr : ReadStep s t r s' t') : Phase s' (threads.set i t') := by
  have hself : (threads.set i t')[i]? = some t' := by
    rw [getElem?_set_of_getElem? hi, if_pos rfl]
  cases hr with
  | found hs _ =>
    refine h.set hi ?_ (by simp [Thread.Fills, Thread.finish])
    rcases hs with hs | hs | hs <;> simp [Thread.Fills, hs]
  | empty hs _ =>
    exact h.set hi (by simp [Thread.Fills, hs]) (by simp [Thread.Fills, Thread.finish])
  | waits hs _ _ | tries hs _ _ | full hs _ | looked hs _ =>
    exact h.set hi (by simp [Thread.Fills, hs]) (by simp [Thread.Fills])
  | claims hs hc hcl =>
    obtain ⟨hch, hr, hq⟩ := h.of_unclaimed hcl
    exact .claimed i _ hself rfl rfl hc hch hr (hq.claim.set_self hi)
  | @takes v hs hc =>
    obtain ⟨hcl, hca, hch, hr, hq⟩ := h.of_receive hi hs
    have hp := h.delivered_of_channel hc
    exact .taken i _ v hself rfl hcl hca rfl (by rw [hp]; rfl) (by simp [hr]) (hq.set_self hi)
  | givesUp hs hc hp =>
    obtain ⟨hcl, hca, hch, hr, hq⟩ := h.of_receive hi hs
    have ho : s.promise.outcome? = some abandonedValue := by
      rw [outcome_of_content hp, ← hch, hc, Option.getD_none]
    exact .taken i _ _ hself rfl hcl hca hc ho (by simp [hr]) (hq.set_self hi)
  | @publishes v hs =>
    obtain ⟨hcl, hca, hch, ho, hr, hq⟩ := h.of_publish hi hs
    exact .published v hcl rfl hch ho hr (hq.release hi (by simp [Thread.Fills, Thread.finish]))

/-! ## What each reader knows -/

/-- What the readers learnt stays true. -/
structure Shared.Grows (s s' : Shared) : Prop where
  cache : ∀ v, s.cache = some v → s'.cache = some v
  delivered : ∀ v, s.promise = .delivered v → s'.promise = .delivered v

/-- What holds of one reader between its steps. -/
structure Thread.Ok (s : Shared) (t : Thread) : Prop where
  /-- A reader with nothing to read is before a read. -/
  idle : t.reads = [] → t.stage = .start
  /-- A reader with something to read holds its handle. -/
  busy : t.reads ≠ [] → t.attached = true
  /-- Only a try tests the channel. -/
  tests : t.stage = .test ∨ t.stage = .look → t.reads.head? = some .tryRead
  /-- A try that goes on from its test knows that a value was delivered. -/
  informed : t.reads.head? = some .tryRead → t.stage ≠ .start → t.stage ≠ .test →
    ∃ v, s.promise = .delivered v
  /-- What a read answered is in the cache. -/
  answered : ∀ r v, (r, some v) ∈ t.answers → s.cache = some v
  /-- A read that waits does not end without a value. -/
  waited : (.await, none) ∉ t.answers

theorem Thread.Ok.grows (h : t.Ok s) (hg : s.Grows s') : t.Ok s' where
  idle := h.idle
  busy := h.busy
  tests := h.tests
  informed := fun hr hs ht => (h.informed hr hs ht).imp hg.delivered
  answered := fun r v hv => hg.cache v (h.answered r v hv)
  waited := h.waited

/-- A step of a reader leaves what the others learnt. -/
theorem Phase.grows (h : Phase s threads) (hi : threads[i]? = some t)
    (hr : ReadStep s t r s' t') : s.Grows s' := by
  cases hr with
  | publishes hs =>
    obtain ⟨-, hc, -⟩ := h.of_publish hi hs
    exact ⟨fun w hw => by simp [hc] at hw, fun _ => id⟩
  | _ => exact ⟨fun _ => id, fun _ => id⟩

/-- A finished read adds its answer. -/
theorem Thread.Ok.finish {answer : Option Value} (h : t.Ok s) (hreads : t.reads ≠ [])
    (hv : ∀ v, answer = some v → s.cache = some v) (hr : answer = none → r ≠ .await) :
    (t.finish r answer).Ok s where
  idle := fun _ => rfl
  busy := fun _ => h.busy hreads
  tests := by simp [Thread.finish]
  informed := fun _ hs => absurd rfl hs
  answered := by
    intro r' v hmem
    rcases List.mem_append.1 hmem with hmem | hmem
    · exact h.answered r' v hmem
    · exact hv v (Prod.mk.inj (List.mem_singleton.1 hmem)).2.symm
  waited := by
    intro hmem
    rcases List.mem_append.1 hmem with hmem | hmem
    · exact h.waited hmem
    · obtain ⟨hawait, hnone⟩ := Prod.mk.inj (List.mem_singleton.1 hmem)
      exact hr hnone.symm hawait.symm

/-- A reader that goes on in its read learns what it needs for the next stage. -/
theorem Thread.Ok.goOn {next : Stage} (h : t.Ok s) (hreads : t.reads ≠ [])
    (htests : next = .test ∨ next = .look → t.reads.head? = some .tryRead)
    (hinformed : t.reads.head? = some .tryRead → next ≠ .test → ∃ v, s.promise = .delivered v) :
    ({ t with stage := next } : Thread).Ok s where
  idle := fun hnil => absurd hnil hreads
  busy := h.busy
  tests := htests
  informed := fun hr _ ht => hinformed hr ht
  answered := h.answered
  waited := h.waited

theorem Thread.Ok.read {rest : List Read} (h : t.Ok s) (hp : Phase s threads)
    (hi : threads[i]? = some t) (hreads : t.reads = r :: rest) (hr : ReadStep s t r s' t') :
    t'.Ok s' := by
  have hne : t.reads ≠ [] := by simp [hreads]
  have hhead : t.reads.head? = some r := by simp [hreads]
  have h' : t.Ok s' := h.grows (hp.grows hi hr)
  -- after its test, a try goes on with what it knew before
  have knew (hs : t.stage ≠ .start) (ht : t.stage ≠ .test) (htry : t.reads.head? = some .tryRead) :
      ∃ v, s'.promise = .delivered v := h'.informed htry hs ht
  cases hr with
  | found _ hc =>
    refine h.finish hne (fun v hv => ?_) (fun hnone => nomatch hnone)
    rw [hc, hv]
  | waits _ hawait _ =>
    refine h.goOn hne (by simp) fun htry _ => ?_
    rw [hhead, hawait] at htry
    cases htry
  | tries _ htry _ => exact h.goOn hne (fun _ => by rw [hhead, htry]) fun _ hn => absurd rfl hn
  | empty hs _ =>
    have htry := h.tests (.inl hs)
    rw [hhead] at htry
    refine h.finish hne (fun v hv => nomatch hv) fun _ => ?_
    rw [Option.some.inj htry]
    simp
  | full hs hc =>
    exact h.goOn hne (fun _ => h.tests (.inl hs)) fun _ _ => ⟨_, hp.delivered_of_channel hc⟩
  | looked hs _ => exact h.goOn hne (by simp) fun htry _ => knew (by simp [hs]) (by simp [hs]) htry
  | claims hs | takes hs | givesUp hs =>
    exact h'.goOn hne (by simp) fun htry _ => knew (by simp [hs]) (by simp [hs]) htry
  | publishes hs =>
    exact h'.finish hne (fun v hv => hv) (fun hnone => nomatch hnone)

/-! ## The invariant -/

/-- What a reader read so far and has still to read. -/
def Thread.script (t : Thread) : List Read := t.answers.map Prod.fst ++ t.reads

/-- What holds of the whole state between two steps. -/
structure Inv (reads : List (List Read)) (σ : State) : Prop where
  phase : Phase σ.shared σ.threads
  ok : ∀ t ∈ σ.threads, t.Ok σ.shared
  /-- A value is handed back only when all readers have left. -/
  refused : ∀ v, σ.shared.promise = .refused v → σ.attached = false
  /-- Every reader does its reads in their order. -/
  scripts : σ.threads.map Thread.script = reads

theorem forall_mem_set {p : Thread → Prop} (h : ∀ t ∈ threads, p t) (ht' : p t') :
    ∀ t ∈ threads.set i t', p t := by
  intro t ht
  rcases List.mem_or_eq_of_mem_set ht with ht | rfl
  · exact h t ht
  · exact ht'

theorem map_script_set (hi : threads[i]? = some t) (h : t'.script = t.script) :
    (threads.set i t').map Thread.script = threads.map Thread.script := by
  obtain ⟨hlt, rfl⟩ := List.getElem?_eq_some_iff.1 hi
  rw [List.map_set, h, ← List.getElem_map Thread.script (h := by simpa using hlt),
    List.set_getElem_self]

theorem Thread.script_finish {rest : List Read} {answer : Option Value}
    (hreads : t.reads = r :: rest) : (t.finish r answer).script = t.script := by
  simp [Thread.script, Thread.finish, hreads]

theorem ReadStep.script {rest : List Read} (h : ReadStep s t r s' t')
    (hreads : t.reads = r :: rest) : t'.script = t.script := by
  cases h with
  | found | empty | publishes => exact Thread.script_finish hreads
  | _ => rfl

theorem ReadStep.attached (h : ReadStep s t r s' t') : t'.attached = t.attached := by
  cases h <;> rfl

theorem ReadStep.promise (h : ReadStep s t r s' t') : s'.promise = s.promise := by
  cases h <;> rfl

theorem attached_of_mem (ht : t ∈ σ.threads) (h : t.attached = true) : σ.attached = true :=
  List.any_eq_true.2 ⟨t, ht, h⟩

theorem Inv.attached {reads : List (List Read)} (h : Inv reads σ) (hi : σ.threads[i]? = some t)
    (hreads : t.reads ≠ []) : σ.attached = true :=
  attached_of_mem (List.mem_of_getElem? hi) ((h.ok t (List.mem_of_getElem? hi)).busy hreads)

/-- Leaving lets nobody in. -/
theorem attached_leave
    (h : State.attached ⟨s', threads.set i { t with attached := false }⟩ = true) :
    State.attached ⟨s, threads⟩ = true := by
  obtain ⟨u, hu, ha⟩ := List.any_eq_true.1 h
  rcases List.mem_or_eq_of_mem_set hu with hu | rfl
  · exact List.any_eq_true.2 ⟨u, hu, ha⟩
  · cases ha

theorem inv_ofReads (reads : List (List Read)) : Inv reads (State.ofReads reads) where
  phase := by
    refine .untouched rfl rfl rfl rfl fun j t hj _ => ?_
    obtain ⟨rs, -, rfl⟩ := List.mem_map.1 (List.mem_of_getElem? hj)
    simp [Thread.Fills]
  ok := by
    intro t ht
    obtain ⟨rs, -, rfl⟩ := List.mem_map.1 ht
    exact ⟨fun _ => rfl, fun _ => rfl, by simp, fun _ hs => absurd rfl hs, by simp, by simp⟩
  refused := fun v hv => nomatch hv
  scripts := by
    show (reads.map _).map Thread.script = reads
    rw [List.map_map]
    exact List.map_id reads

theorem not_attached_of_refused (h : m.outcome? σ = some (.refused v)) : σ.attached = false := by
  cases m with
  | deliver w =>
    rw [Move.outcome?, State.outcome] at h
    split at h
    · cases h
    · next ha => exact Bool.not_eq_true _ ▸ ha
  | _ => cases h

/-- Every step preserves the invariant. -/
theorem Inv.step {reads : List (List Read)} (h : Inv reads σ) (hs : Step σ m σ') :
    Inv reads σ' := by
  cases hs with
  | @settles m outcome hm hp =>
    refine ⟨h.phase.settle hp, fun t ht => (h.ok t ht).grows ⟨fun _ => id, ?_⟩, ?_, h.scripts⟩
    · intro v hv
      rw [hp] at hv
      cases hv
    · rintro v rfl
      exact not_attached_of_refused hm
  | @advances i t t' r rest s' hi hreads hr =>
    have hok := h.ok t (List.mem_of_getElem? hi)
    refine ⟨h.phase.read hi hr, ?_, ?_, ?_⟩
    · exact forall_mem_set (fun u hu => (h.ok u hu).grows (h.phase.grows hi hr))
        (hok.read h.phase hi hreads hr)
    · intro v hv
      have hfalse := h.refused v (hr.promise ▸ hv)
      rw [h.attached hi (by simp [hreads])] at hfalse
      cases hfalse
    · exact (map_script_set hi (hr.script hreads)).trans h.scripts
  | @leaves i t hi hreads ha =>
    have hok := h.ok t (List.mem_of_getElem? hi)
    have hstart := hok.idle hreads
    have hscript : Thread.script { t with attached := false } = t.script := rfl
    refine ⟨h.phase.set hi (by simp [Thread.Fills, hstart]) (by simp [Thread.Fills, hstart]),
      forall_mem_set h.ok ?_, ?_, (map_script_set hi hscript).trans h.scripts⟩
    · exact ⟨hok.idle, fun hne => absurd hreads hne, hok.tests, hok.informed, hok.answered,
        hok.waited⟩
    · intro v hv
      rw [← Bool.not_eq_true]
      intro hatt
      have hbefore : σ.attached = true := attached_leave hatt
      rw [h.refused v hv] at hbefore
      cases hbefore

end Handover

end ScriptValues
