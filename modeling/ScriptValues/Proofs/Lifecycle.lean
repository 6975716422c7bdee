import ScriptValues.Futures

/-!
# The life of one future

What can happen to a single future, one thing after another, whatever the script does around it. A
future is made pending or ready; its promise is used up by a delivery or dropped; reads take the
value into the cache; and at any time the last handle may go.

* `Stage.Next`: what can happen at each stage, and what follows.
* `Stage.Life`: a history that leads from nothing to a stage.
* `Stage.Fits`: what the past has to be for a future to be at a stage.
* `Stage.Life.readOnce`: every history obeys the laws of `ReadOnce`.
-/

namespace ScriptValues

/-- What happens to one future, and what is answered. -/
inductive Happening where
  /-- It is made, with an open promise. -/
  | deferred
  /-- It is made with a value in the cache. -/
  | madeReady (v : Value)
  /-- Its promise delivers a value. -/
  | delivered (v : Value)
  /-- Its promise gets the value back, since nobody can read it. -/
  | refused (v : Value)
  /-- Its promise is dropped without delivering. -/
  | abandoned
  /-- A read that waits for the value answers with it. -/
  | awaited (v : Value)
  /-- A read that does not wait answers with the value or with nothing. -/
  | tried (answer : Option Value)
  /-- Somebody asks whether it is resolved. -/
  | asked (resolved : Bool)

namespace Happening

def answer? : Happening → Option Value
  | .awaited v => some v
  | .tried answer => answer
  | _ => none

end Happening

/-! ## Laws of a history -/

/-- The future is in the cache after this past: it was made ready or it was read. -/
def InCache (past : List Happening) : Prop :=
  (∃ v, .madeReady v ∈ past) ∨ ∃ e ∈ past, e.answer?.isSome

/-- The laws that the history of one future obeys. -/
structure ReadOnce (history : List Happening) : Prop where
  /-- After a read answered, every read gives that answer and the future is resolved. -/
  stable {before after : List Happening} {e : Happening} {v : Value} :
    history = before ++ e :: after → e.answer? = some v →
      ∀ later ∈ after, (∀ w, later.answer? = some w → w = v) ∧
        later ≠ .tried none ∧ later ≠ .asked false
  /-- Before a read answered, exactly a future that was made ready is resolved. -/
  resolved_before_read {before after : List Happening} {b : Bool} :
    history = before ++ .asked b :: after → (∀ e ∈ before, e.answer? = none) →
      (b = true ↔ ∃ v, .madeReady v ∈ before)
  /-- A read answers with the value that was delivered or that the future was made ready with; with
  the abandoned error exactly if its promise was dropped before and nothing was delivered. -/
  answer {before after : List Happening} {e : Happening} {v : Value} :
    history = before ++ e :: after → e.answer? = some v →
      (∀ w, .delivered w ∈ before → v = w) ∧ (∀ w, .madeReady w ∈ before → v = w) ∧
      (.abandoned ∈ before ↔
        v = abandonedValue ∧ ∀ w, .delivered w ∉ before ∧ .madeReady w ∉ before) ∧
      (.abandoned ∈ before ∨ ∃ w, .delivered w ∈ before ∨ .madeReady w ∈ before)
  /-- A promise that delivered never counts as dropped. -/
  delivered_once {v : Value} :
    .delivered v ∈ history → .abandoned ∉ history ∧ ∀ w, .delivered w ∈ history → w = v
  /-- A try finds nothing exactly if the future is not resolved and nothing was delivered. -/
  tried_none {before after : List Happening} {answer : Option Value} :
    history = before ++ .tried answer :: after →
      (answer = none ↔ ¬ InCache before ∧ ∀ v, .delivered v ∉ before)

/-! ## Stages -/

/-- The value that a read which waits gets from a cell now. -/
def Cell.answer? : Cell → Option Value
  | .delivered v => some v
  | .resolved v => some v
  | .abandoned => some abandonedValue
  | .pending | .released => none

def Cell.isResolved : Cell → Bool
  | .resolved _ => true
  | _ => false

/-- Where a future stands: its cell, once it was made, and whether its promise is open. -/
structure Stage where
  cell : Option Cell
  promised : Bool

namespace Stage

/-- What can happen at a stage, and the stage that follows. -/
inductive Next : Stage → Happening → Stage → Prop
  | deferred : Next ⟨none, false⟩ .deferred ⟨some .pending, true⟩
  | madeReady (v : Value) : Next ⟨none, false⟩ (.madeReady v) ⟨some (.resolved v), false⟩
  | delivered (v : Value) :
      Next ⟨some .pending, true⟩ (.delivered v) ⟨some (.delivered v), false⟩
  | refused (v : Value) : Next ⟨some .released, true⟩ (.refused v) ⟨some .released, false⟩
  | abandoned : Next ⟨some .pending, true⟩ .abandoned ⟨some .abandoned, false⟩
  | abandonedUnseen : Next ⟨some .released, true⟩ .abandoned ⟨some .released, false⟩
  | awaited {c : Cell} {v : Value} {p : Bool} :
      c.answer? = some v → Next ⟨some c, p⟩ (.awaited v) ⟨some (.resolved v), p⟩
  | tried {c : Cell} {v : Value} {p : Bool} :
      c.content? = some v → Next ⟨some c, p⟩ (.tried (some v)) ⟨some (.resolved v), p⟩
  | triedNone {c : Cell} {p : Bool} :
      c.content? = none → c ≠ .released → Next ⟨some c, p⟩ (.tried none) ⟨some c, p⟩
  | asked {c : Cell} {p : Bool} :
      c ≠ .released → Next ⟨some c, p⟩ (.asked c.isResolved) ⟨some c, p⟩

/-- A history that leads from one stage to another. A cell may be released at any time. -/
inductive Steps (start : Stage) : List Happening → Stage → Prop
  | refl : Steps start [] start
  | release {past : List Happening} {c : Cell} {p : Bool} :
      Steps start past ⟨some c, p⟩ → Steps start past ⟨some .released, p⟩
  | next {past : List Happening} {e : Happening} {s s' : Stage} :
      Steps start past s → Next s e s' → Steps start (past ++ [e]) s'

theorem Steps.trans {a b c : Stage} {past more : List Happening} (h : Steps a past b)
    (h' : Steps b more c) : Steps a (past ++ more) c := by
  induction h' with
  | refl => rwa [List.append_nil]
  | release _ ih => exact .release ih
  | next _ hn ih =>
    rw [← List.append_assoc]
    exact .next ih hn

theorem Steps.single {a b : Stage} {e : Happening} (h : Next a e b) : Steps a [e] b :=
  .next .refl h

/-- The history of a future from before it was made. -/
def Life (history : List Happening) (s : Stage) : Prop := Steps ⟨none, false⟩ history s

/-! ## What a stage says about the past -/

/-- Nothing was delivered, dropped, or made ready. -/
def Undecided (past : List Happening) : Prop :=
  .abandoned ∉ past ∧ ∀ v, .delivered v ∉ past ∧ .madeReady v ∉ past

/-- No read answered. -/
def Unread (past : List Happening) : Prop := ∀ e ∈ past, e.answer? = none

/-- Exactly this value was delivered. -/
def DeliveredOnly (past : List Happening) (v : Value) : Prop :=
  (∀ w, .delivered w ∈ past ↔ w = v) ∧ .abandoned ∉ past ∧ ∀ w, .madeReady w ∉ past

/-- The promise was dropped without delivering. -/
def AbandonedOnly (past : List Happening) : Prop :=
  .abandoned ∈ past ∧ ∀ v, .delivered v ∉ past ∧ .madeReady v ∉ past

/-- The future was made ready with exactly this value. -/
def ReadyOnly (past : List Happening) (v : Value) : Prop :=
  (∀ w, .madeReady w ∈ past ↔ w = v) ∧ .abandoned ∉ past ∧ ∀ w, .delivered w ∉ past

/-- Every read answered with this value. -/
def ReadOnly (past : List Happening) (v : Value) : Prop :=
  ∀ e ∈ past, ∀ w, e.answer? = some w → w = v

/-- What became of the promise is settled at most once. -/
def Consistent (past : List Happening) : Prop :=
  Undecided past ∨ (∃ v, DeliveredOnly past v) ∨ AbandonedOnly past ∨ ∃ v, ReadyOnly past v

/-- The pasts that lead to a stage. -/
def Fits (past : List Happening) : Stage → Prop
  | ⟨none, p⟩ => past = [] ∧ p = false
  | ⟨some .pending, p⟩ => p = true ∧ Undecided past ∧ Unread past
  | ⟨some (.delivered v), p⟩ => p = false ∧ DeliveredOnly past v ∧ Unread past
  | ⟨some .abandoned, p⟩ => p = false ∧ AbandonedOnly past ∧ Unread past
  | ⟨some (.resolved v), p⟩ => p = false ∧ InCache past ∧ ReadOnly past v ∧
      (DeliveredOnly past v ∨ ReadyOnly past v ∨ AbandonedOnly past ∧ v = abandonedValue)
  | ⟨some .released, p⟩ => (p = true → Undecided past) ∧ Consistent past

variable {past : List Happening} {s s' : Stage} {e : Happening} {c : Cell} {v : Value} {p : Bool}

theorem Fits.consistent (h : Fits past s) : Consistent past := by
  obtain ⟨cell, p⟩ := s
  match cell with
  | none =>
    obtain ⟨rfl, -⟩ := h
    exact .inl ⟨by simp, by simp⟩
  | some .pending => exact .inl h.2.1
  | some (.delivered v) => exact .inr (.inl ⟨v, h.2.1⟩)
  | some .abandoned => exact .inr (.inr (.inl h.2.1))
  | some (.resolved v) =>
    rcases h.2.2.2 with hd | hr | ⟨ha, -⟩
    · exact .inr (.inl ⟨v, hd⟩)
    · exact .inr (.inr (.inr ⟨v, hr⟩))
    · exact .inr (.inr (.inl ha))
  | some .released => exact h.2

/-- Once a future is released, an open promise is all that matters. -/
theorem Fits.release (h : Fits past ⟨some c, p⟩) : Fits past ⟨some .released, p⟩ := by
  refine ⟨fun hp => ?_, h.consistent⟩
  subst hp
  cases c with
  | pending => exact h.2.1
  | released => exact h.1 rfl
  | delivered v => exact absurd h.1 (by simp)
  | abandoned => exact absurd h.1 (by simp)
  | resolved v => exact absurd h.1 (by simp)

/-! ## One thing more -/

/-- A question or a read settles nothing. -/
def Settles : Happening → Prop
  | .delivered _ | .abandoned | .madeReady _ => True
  | _ => False

theorem Undecided.append (h : Undecided past) (he : ¬ Settles e) : Undecided (past ++ [e]) := by
  cases e <;> simp_all [Undecided, Settles]

theorem DeliveredOnly.append (h : DeliveredOnly past v) (he : ¬ Settles e) :
    DeliveredOnly (past ++ [e]) v := by
  cases e <;> simp_all [DeliveredOnly, Settles]

theorem AbandonedOnly.append (h : AbandonedOnly past) (he : ¬ Settles e) :
    AbandonedOnly (past ++ [e]) := by
  cases e <;> simp_all [AbandonedOnly, Settles]

theorem ReadyOnly.append (h : ReadyOnly past v) (he : ¬ Settles e) :
    ReadyOnly (past ++ [e]) v := by
  cases e <;> simp_all [ReadyOnly, Settles]

theorem Consistent.append (h : Consistent past) (he : ¬ Settles e) : Consistent (past ++ [e]) := by
  rcases h with h | ⟨v, h⟩ | h | ⟨v, h⟩
  · exact .inl (h.append he)
  · exact .inr (.inl ⟨v, h.append he⟩)
  · exact .inr (.inr (.inl (h.append he)))
  · exact .inr (.inr (.inr ⟨v, h.append he⟩))

theorem Unread.append (h : Unread past) (he : e.answer? = none) : Unread (past ++ [e]) := by
  intro x hx
  rcases List.mem_append.1 hx with hx | hx
  · exact h x hx
  · rwa [List.mem_singleton.1 hx]

theorem ReadOnly.append (h : ReadOnly past v) (he : ∀ w, e.answer? = some w → w = v) :
    ReadOnly (past ++ [e]) v := by
  intro x hx w hw
  rcases List.mem_append.1 hx with hx | hx
  · exact h x hx w hw
  · exact he w (List.mem_singleton.1 hx ▸ hw)

theorem Unread.readOnly (h : Unread past) : ReadOnly past v := by
  intro x hx w hw
  rw [h x hx] at hw
  cases hw

theorem inCache_append (h : InCache past) : InCache (past ++ [e]) := by
  rcases h with ⟨v, hv⟩ | ⟨x, hx, ha⟩
  · exact .inl ⟨v, List.mem_append_left _ hv⟩
  · exact .inr ⟨x, List.mem_append_left _ hx, ha⟩

theorem inCache_of_answer (h : e.answer? = some v) : InCache (past ++ [e]) :=
  .inr ⟨e, by simp, by simp [h]⟩

/-- A question or a read that changes nothing leaves the past fitting. -/
theorem Fits.idle (h : Fits past ⟨some c, p⟩) (he : ¬ Settles e) (ha : e.answer? = none) :
    Fits (past ++ [e]) ⟨some c, p⟩ := by
  cases c with
  | pending => exact ⟨h.1, h.2.1.append he, h.2.2.append ha⟩
  | delivered v => exact ⟨h.1, h.2.1.append he, h.2.2.append ha⟩
  | abandoned => exact ⟨h.1, h.2.1.append he, h.2.2.append ha⟩
  | released => exact ⟨fun hp => (h.1 hp).append he, h.2.append he⟩
  | resolved v =>
    obtain ⟨hp, hc, hr, ho⟩ := h
    refine ⟨hp, inCache_append hc, hr.append (by simp [ha]), ?_⟩
    rcases ho with ho | ho | ⟨ho, hv⟩
    · exact .inl (ho.append he)
    · exact .inr (.inl (ho.append he))
    · exact .inr (.inr ⟨ho.append he, hv⟩)

/-- A read that answers fills the cache. -/
theorem Fits.read (h : Fits past ⟨some c, p⟩) (hc : c.answer? = some v) (he : ¬ Settles e)
    (ha : e.answer? = some v) : Fits (past ++ [e]) ⟨some (.resolved v), p⟩ := by
  have hread : ∀ w, e.answer? = some w → w = v := by
    intro w hw
    rw [ha] at hw
    exact (Option.some.inj hw).symm
  cases c with
  | pending => cases hc
  | released => cases hc
  | delivered w =>
    obtain rfl := Option.some.inj hc
    exact ⟨h.1, inCache_of_answer ha, h.2.2.readOnly.append hread, .inl (h.2.1.append he)⟩
  | abandoned =>
    obtain rfl := Option.some.inj hc
    exact ⟨h.1, inCache_of_answer ha, h.2.2.readOnly.append hread,
      .inr (.inr ⟨h.2.1.append he, rfl⟩)⟩
  | resolved w =>
    obtain rfl := Option.some.inj hc
    refine ⟨h.1, inCache_of_answer ha, h.2.2.1.append hread, ?_⟩
    rcases h.2.2.2 with ho | ho | ⟨ho, hv⟩
    · exact .inl (ho.append he)
    · exact .inr (.inl (ho.append he))
    · exact .inr (.inr ⟨ho.append he, hv⟩)

theorem answer_of_content (h : c.content? = some v) : c.answer? = some v := by
  cases c <;> simp_all [Cell.content?, Cell.answer?]

theorem Undecided.delivered (h : Undecided past) :
    DeliveredOnly (past ++ [.delivered v]) v := by
  refine ⟨fun w => ?_, by simpa using h.1, fun w => by simpa using (h.2 w).2⟩
  simp [(h.2 w).1, eq_comm]

theorem Undecided.abandoned (h : Undecided past) : AbandonedOnly (past ++ [.abandoned]) :=
  ⟨by simp, by simpa using h.2⟩

/-- The past goes on fitting the stage. -/
theorem Fits.next (h : Fits past s) (hn : Next s e s') : Fits (past ++ [e]) s' := by
  cases hn with
  | deferred =>
    obtain ⟨rfl, -⟩ := h
    exact ⟨rfl, by simp [Undecided], by simp [Unread, Happening.answer?]⟩
  | madeReady v =>
    obtain ⟨rfl, -⟩ := h
    exact ⟨rfl, .inl ⟨v, by simp⟩, by simp [ReadOnly, Happening.answer?],
      .inr (.inl (by simp [ReadyOnly, eq_comm]))⟩
  | delivered v => exact ⟨rfl, h.2.1.delivered, h.2.2.append rfl⟩
  | refused v => exact ⟨by simp, .inl ((h.1 rfl).append id)⟩
  | abandoned => exact ⟨rfl, h.2.1.abandoned, h.2.2.append rfl⟩
  | abandonedUnseen => exact ⟨by simp, .inr (.inr (.inl (h.1 rfl).abandoned))⟩
  | awaited hc => exact h.read hc id rfl
  | tried hc => exact h.read (answer_of_content hc) id rfl
  | triedNone => exact h.idle id rfl
  | asked => exact h.idle id rfl

theorem Life.fits (h : Life past s) : Fits past s := by
  induction h with
  | refl => exact ⟨rfl, rfl⟩
  | release _ ih => exact ih.release
  | next _ hn ih => exact ih.next hn

/-! ## The laws -/

/-- A history can be cut before anything that happened. -/
theorem Steps.split {start s : Stage} {history before after : List Happening}
    (h : Steps start history s) (heq : history = before ++ e :: after) :
    ∃ s₁ s₂, Steps start before s₁ ∧ Next s₁ e s₂ ∧ Steps s₂ after s := by
  induction h generalizing after with
  | refl => simp at heq
  | release _ ih =>
    obtain ⟨s₁, s₂, hb, hn, ha⟩ := ih heq
    exact ⟨s₁, s₂, hb, hn, .release ha⟩
  | @next past e' s s' hs hn ih =>
    rcases List.eq_nil_or_concat after with rfl | ⟨mid, last, rfl⟩
    · obtain ⟨rfl, rfl⟩ := List.concat_inj.1 (by simpa using heq)
      exact ⟨s, s', hs, hn, .refl⟩
    · have heq' : past ++ [e'] = (before ++ e :: mid) ++ [last] := by simpa using heq
      obtain ⟨hpast, hlast⟩ := List.append_inj' heq' rfl
      obtain rfl := (List.cons.inj hlast).1
      obtain ⟨s₁, s₂, hb, hfirst, ha⟩ := ih hpast
      exact ⟨s₁, s₂, hb, hfirst, by rw [List.concat_eq_append]; exact .next ha hn⟩

/-- The past before anything that happened fits the stage at which it happened. -/
theorem Life.fits_before {history before after : List Happening} (h : Life history s)
    (heq : history = before ++ e :: after) : ∃ s₁ s₂, Fits before s₁ ∧ Next s₁ e s₂ := by
  obtain ⟨s₁, s₂, hb, hn, -⟩ := Steps.split h heq
  exact ⟨s₁, s₂, Life.fits hb, hn⟩

/-- A read that answers finds an answer in the cell. -/
theorem Next.answer (h : Next s e s') (ha : e.answer? = some v) :
    ∃ c p, s = ⟨some c, p⟩ ∧ c.answer? = some v := by
  cases h with
  | awaited hc =>
    obtain rfl := Option.some.inj ha
    exact ⟨_, _, rfl, hc⟩
  | tried hc =>
    obtain rfl := Option.some.inj ha
    exact ⟨_, _, rfl, answer_of_content hc⟩
  | _ => cases ha

theorem Unread.not_inCache (h : Unread past) (hr : ∀ v, .madeReady v ∉ past) : ¬ InCache past := by
  rintro (⟨v, hv⟩ | ⟨e, he, ha⟩)
  · exact hr v hv
  · simp [h e he] at ha

/-- As long as a future can be seen, it is resolved exactly when it is in the cache. -/
theorem Fits.isResolved_iff (h : Fits past ⟨some c, p⟩) (hc : c ≠ .released) :
    c.isResolved = true ↔ InCache past := by
  cases c with
  | pending => simpa [Cell.isResolved] using h.2.2.not_inCache fun w => (h.2.1.2 w).2
  | delivered v => simpa [Cell.isResolved] using h.2.2.not_inCache h.2.1.2.2
  | abandoned => simpa [Cell.isResolved] using h.2.2.not_inCache fun w => (h.2.1.2 w).2
  | resolved v => simpa [Cell.isResolved] using h.2.1
  | released => exact absurd rfl hc

/-- A future that holds nothing was not read. -/
theorem Fits.not_inCache (h : Fits past ⟨some c, p⟩) (hc : c.content? = none)
    (hne : c ≠ .released) : ¬ InCache past := by
  rw [← h.isResolved_iff hne]
  cases c with
  | resolved v => cases hc
  | _ => exact Bool.false_ne_true

/-- What a read answers is settled by the past. -/
theorem Fits.answer (h : Fits past ⟨some c, p⟩) (hc : c.answer? = some v) :
    DeliveredOnly past v ∨ ReadyOnly past v ∨ AbandonedOnly past ∧ v = abandonedValue := by
  cases c with
  | pending => cases hc
  | released => cases hc
  | delivered w => exact .inl (Option.some.inj hc ▸ h.2.1)
  | abandoned => exact .inr (.inr ⟨h.2.1, (Option.some.inj hc).symm⟩)
  | resolved w => exact Option.some.inj hc ▸ h.2.2.2

/-- The value that the past has given the future: it was delivered, or the future was made ready
with it, or a read answered with it. -/
def Known (past : List Happening) (v : Value) : Prop :=
  .delivered v ∈ past ∨ .madeReady v ∈ past ∨ ∃ e ∈ past, e.answer? = some v

/-- As long as a future can be seen, it holds the value that the past has given it. -/
theorem Fits.content_of_known (h : Fits past ⟨some c, p⟩) (hne : c ≠ .released)
    (hk : Known past v) : c.content? = some v := by
  cases c with
  | released => exact absurd rfl hne
  | pending =>
    rcases hk with hd | hr | ⟨e, he, ha⟩
    · exact absurd hd (h.2.1.2 v).1
    · exact absurd hr (h.2.1.2 v).2
    · simp [h.2.2 e he] at ha
  | abandoned =>
    rcases hk with hd | hr | ⟨e, he, ha⟩
    · exact absurd hd (h.2.1.2 v).1
    · exact absurd hr (h.2.1.2 v).2
    · simp [h.2.2 e he] at ha
  | delivered w =>
    rcases hk with hd | hr | ⟨e, he, ha⟩
    · exact congrArg some ((h.2.1.1 v).1 hd).symm
    · exact absurd hr (h.2.1.2.2 v)
    · simp [h.2.2 e he] at ha
  | resolved w =>
    obtain ⟨-, -, hread, ho⟩ := h
    rcases hk with hd | hr | ⟨e, he, ha⟩
    · rcases ho with ho | ho | ⟨ho, -⟩
      · exact congrArg some ((ho.1 v).1 hd).symm
      · exact absurd hd (ho.2.2 v)
      · exact absurd hd (ho.2 v).1
    · rcases ho with ho | ho | ⟨ho, -⟩
      · exact absurd hr (ho.2.2 v)
      · exact congrArg some ((ho.1 v).1 hr).symm
      · exact absurd hr (ho.2 v).2
    · exact congrArg some (hread e he v ha).symm

/-- As long as a future can be seen whose promise was dropped, a read that waits gets the abandoned
error. -/
theorem Fits.answer_of_abandoned (h : Fits past ⟨some c, p⟩) (hne : c ≠ .released)
    (ha : .abandoned ∈ past) : c.answer? = some abandonedValue := by
  cases c with
  | released => exact absurd rfl hne
  | pending => exact absurd ha h.2.1.1
  | delivered w => exact absurd ha h.2.1.2.1
  | abandoned => rfl
  | resolved w =>
    rcases h.2.2.2 with ho | ho | ⟨-, rfl⟩
    · exact absurd ha ho.2.1
    · exact absurd ha ho.2.1
    · rfl

/-- As long as a future can be seen of which nothing is settled, it waits. -/
theorem Fits.pending_of_undecided (h : Fits past ⟨some c, p⟩) (hne : c ≠ .released)
    (hu : Undecided past) : c = .pending := by
  cases c with
  | released => exact absurd rfl hne
  | pending => rfl
  | delivered w => exact absurd ((h.2.1.1 w).2 rfl) (hu.2 w).1
  | abandoned => exact absurd h.2.1.1 hu.1
  | resolved w =>
    rcases h.2.2.2 with ho | ho | ⟨ho, -⟩
    · exact absurd ((ho.1 w).2 rfl) (hu.2 w).1
    · exact absurd ((ho.1 w).2 rfl) (hu.2 w).2
    · exact absurd ho.1 hu.1

/-- As long as a future can be seen that was not read and to which nothing was delivered, a try
finds nothing in it. -/
theorem Fits.content_eq_none (h : Fits past ⟨some c, p⟩) (hc : ¬ InCache past)
    (hd : ∀ v, .delivered v ∉ past) : c.content? = none := by
  cases c with
  | delivered w => exact absurd ((h.2.1.1 w).2 rfl) (hd w)
  | resolved w => exact absurd h.2.1 hc
  | _ => rfl

theorem inCache_of_mem (he : e ∈ past) (ha : e.answer? = some v) : InCache past :=
  .inr ⟨e, he, by simp [ha]⟩

theorem ne_released_of_answer (h : c.answer? = some v) : c ≠ .released := by
  rintro rfl
  cases h

/-- A read after a read gives the same answer. -/
theorem Fits.answer_eq {w : Value} (h : Fits past ⟨some c, p⟩) (hc : c.answer? = some w)
    (he : e ∈ past) (ha : e.answer? = some v) : w = v := by
  have hres := (h.isResolved_iff (ne_released_of_answer hc)).2 (inCache_of_mem he ha)
  cases c with
  | resolved x =>
    obtain rfl := Option.some.inj hc
    exact (h.2.2.1 e he v ha).symm
  | _ => cases hres

theorem Consistent.delivered (h : Consistent past) (hv : .delivered v ∈ past) :
    DeliveredOnly past v := by
  rcases h with h | ⟨w, h⟩ | h | ⟨w, h⟩
  · exact absurd hv (h.2 v).1
  · obtain rfl := (h.1 v).1 hv
    exact h
  · exact absurd hv (h.2 v).1
  · exact absurd hv (h.2.2 v)

/-- After a delivery the value stays in the cell until that is released, every read answers with
it, and no try finds nothing. -/
theorem Steps.of_delivered {history : List Happening}
    (h : Steps ⟨some (.delivered v), false⟩ history s) :
    (∀ e ∈ history, (∀ w, e.answer? = some w → w = v) ∧ e ≠ .tried none) ∧
      ∃ c, s = ⟨some c, false⟩ ∧ (c ≠ .released → c.content? = some v) := by
  induction h with
  | refl => exact ⟨fun _ he => absurd he List.not_mem_nil, _, rfl, fun _ => rfl⟩
  | release _ ih =>
    obtain ⟨hreads, c, heq, -⟩ := ih
    cases heq
    exact ⟨hreads, _, rfl, fun hne => absurd rfl hne⟩
  | @next past e s s' _ hn ih =>
    obtain ⟨hreads, c, rfl, hc⟩ := ih
    have hkept : c ≠ .released → c.answer? = some v := fun hne => answer_of_content (hc hne)
    have hlast : (∀ w, e.answer? = some w → w = v) ∧ e ≠ .tried none := by
      constructor
      · intro w hw
        obtain ⟨c', p', heq, hanswer⟩ := hn.answer hw
        cases heq
        rw [hkept (ne_released_of_answer hanswer)] at hanswer
        exact (Option.some.inj hanswer).symm
      · rintro rfl
        cases hn with
        | triedNone hnone hne =>
          rw [hc hne] at hnone
          cases hnone
    refine ⟨fun x hx => ?_, ?_⟩
    · rcases List.mem_append.1 hx with hx | hx
      · exact hreads x hx
      · exact List.mem_singleton.1 hx ▸ hlast
    · cases hn with
      | awaited ha => exact ⟨_, rfl, fun _ => congrArg some (hlast.1 _ rfl)⟩
      | tried ha => exact ⟨_, rfl, fun _ => congrArg some (hlast.1 _ rfl)⟩
      | triedNone => exact ⟨_, rfl, hc⟩
      | asked => exact ⟨_, rfl, hc⟩

/-- The history of a future obeys the laws. -/
theorem Life.readOnce {history : List Happening} (h : Life history s) : ReadOnce history where
  stable := by
    intro before after e v heq ha later hlater
    obtain ⟨mid, rest, rfl⟩ := List.append_of_mem hlater
    have hcut : history = (before ++ e :: mid) ++ later :: rest := by
      rw [heq, List.append_assoc, List.cons_append]
    have he : e ∈ before ++ e :: mid := by simp
    obtain ⟨s₁, s₂, hf, hn⟩ := h.fits_before hcut
    refine ⟨?_, ?_, ?_⟩
    · intro w hw
      obtain ⟨c, p, rfl, hc⟩ := hn.answer hw
      exact hf.answer_eq hc he ha
    · rintro rfl
      cases hn with
      | @triedNone c p hc hne =>
        exact absurd (inCache_of_mem he ha) (hf.not_inCache hc hne)
    · intro hl
      cases hn with
      | @asked c p hne =>
        have hres := (hf.isResolved_iff hne).2 (inCache_of_mem he ha)
        rw [hres] at hl
        cases hl
      | _ => cases hl
  resolved_before_read := by
    intro before after b heq hunread
    obtain ⟨s₁, s₂, hf, hn⟩ := h.fits_before heq
    cases hn with
    | @asked c p hne =>
      rw [hf.isResolved_iff hne]
      constructor
      · rintro (hr | ⟨e, he, ha⟩)
        · exact hr
        · simp [hunread e he] at ha
      · exact .inl
  answer := by
    intro before after e v heq ha
    obtain ⟨s₁, s₂, hf, hn⟩ := h.fits_before heq
    obtain ⟨c, p, rfl, hc⟩ := hn.answer ha
    rcases hf.answer hc with hd | hr | ⟨hab, rfl⟩
    · exact ⟨fun w hw => ((hd.1 w).1 hw).symm, fun w hw => absurd hw (hd.2.2 w),
        ⟨fun hab => absurd hab hd.2.1, fun hn => absurd ((hd.1 v).2 rfl) (hn.2 v).1⟩,
        .inr ⟨v, .inl ((hd.1 v).2 rfl)⟩⟩
    · exact ⟨fun w hw => absurd hw (hr.2.2 w), fun w hw => ((hr.1 w).1 hw).symm,
        ⟨fun hab => absurd hab hr.2.1, fun hn => absurd ((hr.1 v).2 rfl) (hn.2 v).2⟩,
        .inr ⟨v, .inr ((hr.1 v).2 rfl)⟩⟩
    · exact ⟨fun w hw => absurd hw (hab.2 w).1, fun w hw => absurd hw (hab.2 w).2,
        ⟨fun _ => ⟨rfl, hab.2⟩, fun _ => hab.1⟩, .inl hab.1⟩
  delivered_once := by
    intro v hv
    have hd := h.fits.consistent.delivered hv
    exact ⟨hd.2.1, fun w hw => (hd.1 w).1 hw⟩
  tried_none := by
    intro before after answer heq
    obtain ⟨s₁, s₂, hf, hn⟩ := h.fits_before heq
    cases hn with
    | @tried c v p hc =>
      constructor
      · intro hnone
        cases hnone
      · rintro ⟨hcache, hnone⟩
        cases c with
        | delivered w => exact absurd ((hf.2.1.1 w).2 rfl) (hnone w)
        | resolved w => exact absurd hf.2.1 hcache
        | _ => cases hc
    | @triedNone c p hc hne =>
      refine ⟨fun _ => ⟨hf.not_inCache hc hne, fun v hv => ?_⟩, fun _ => rfl⟩
      · cases c with
        | pending => exact (hf.2.1.2 v).1 hv
        | abandoned => exact (hf.2.1.2 v).1 hv
        | released => exact hne rfl
        | _ => cases hc

end Stage

end ScriptValues
