import ScriptValues.Proofs.GuardScopes

/-!
# Faults under nested guards

A fault is turned into an outcome by the innermost guard around it that catches at all. What this
guard reports is about that fault and by its own flag, whatever ran inside it. A guard whose body
comes to a value returns the value and nothing else.

* `HostProgram.mem_log_iff`: the log holds the outcomes of the guards that were run.
* `HostProgram.GuardedRun`: the laws of one run of a guard.
* `HostProgram.GuardLaws`: the laws of the guards in the run of a program.
* `HostProgram.guardLaws_of_onlyGuards`: programs in which guards alone catch faults keep them.
-/

namespace ScriptValues

namespace HostProgram

variable {program body : HostProgram} {rest : List HostProgram} {h : Host} {g : Guard}
  {payload : Payload} {outcome : Outcome}

/-! ## The log -/

/-- A guard of the program comes to an outcome in the run. -/
def Notes (program : HostProgram) (h : Host) (outcome : Outcome) : Prop :=
  ∃ gs g body h', Reaches program h gs (.guard g body) h' ∧ (g.run body.run h').1 = .ok outcome

theorem notes_next_of_error {halt : Halt} {between : Host}
    (hrun : body.run h = (.error halt, between)) :
    Notes (.sequence (body :: rest)) h outcome ↔ Notes body h outcome := by
  constructor
  · rintro ⟨gs, g, inner, h', hr, houtcome⟩
    cases hr with
    | first hr => exact ⟨gs, g, inner, h', hr, houtcome⟩
    | later hok hr => cases hrun.symm.trans hok
  · rintro ⟨gs, g, inner, h', hr, houtcome⟩
    exact ⟨gs, g, inner, h', .first hr, houtcome⟩

theorem notes_next_of_ok {v : Value} {between : Host} (hrun : body.run h = (.ok v, between)) :
    Notes (.sequence (body :: rest)) h outcome ↔
      Notes body h outcome ∨ Notes (.sequence rest) between outcome := by
  constructor
  · rintro ⟨gs, g, inner, h', hr, houtcome⟩
    cases hr with
    | first hr => exact .inl ⟨gs, g, inner, h', hr, houtcome⟩
    | later hok hr =>
      cases hrun.symm.trans hok
      exact .inr ⟨gs, g, inner, h', hr, houtcome⟩
  · rintro (⟨gs, g, inner, h', hr, houtcome⟩ | ⟨gs, g, inner, h', hr, houtcome⟩)
    · exact ⟨gs, g, inner, h', .first hr, houtcome⟩
    · exact ⟨gs, g, inner, h', .later hrun hr, houtcome⟩

theorem notes_guarded : Notes (.guarded g body) h outcome ↔
    (g.run body.run h).1 = .ok outcome ∨ Notes body (g.enter h) outcome := by
  constructor
  · rintro ⟨gs, g', inner, h', hr, houtcome⟩
    cases hr with
    | start => exact .inl houtcome
    | inside hr => exact .inr ⟨_, g', inner, h', hr, houtcome⟩
  · rintro (houtcome | ⟨gs, g', inner, h', hr, houtcome⟩)
    · exact ⟨[], g, body, h, .start, houtcome⟩
    · exact ⟨g :: gs, g', inner, h', .inside hr, houtcome⟩

theorem notes_announced : Notes (.announced g body) h outcome ↔
    Notes (.guarded g body) (h.note (.policy g.policy)) outcome := by
  constructor
  · rintro ⟨gs, g', inner, h', hr, houtcome⟩
    cases hr with
    | announced hr => exact ⟨gs, g', inner, h', hr, houtcome⟩
  · rintro ⟨gs, g', inner, h', hr, houtcome⟩
    exact ⟨gs, g', inner, h', .announced hr, houtcome⟩

/-- A program that runs no guard adds no outcome. -/
theorem mem_log_of_no_guard (hlog : (program.run h).2.log = h.log)
    (hnone : ∀ gs g body h', ¬ Reaches program h gs (.guard g body) h') :
    .outcome outcome ∈ (program.run h).2.log ↔
      .outcome outcome ∈ h.log ∨ Notes program h outcome := by
  have hnotes : ¬ Notes program h outcome := fun ⟨gs, g, body, h', hr, _⟩ => hnone gs g body h' hr
  rw [hlog]
  simp [hnotes]

/-- A guard that returns adds its own outcome to those of its body. -/
theorem mem_log_guarded (hbody : .outcome outcome ∈ (body.run (g.enter h)).2.log ↔
      .outcome outcome ∈ (g.enter h).log ∨ Notes body (g.enter h) outcome) :
    .outcome outcome ∈ (run (.guarded g body) h).2.log ↔
      .outcome outcome ∈ h.log ∨ Notes (.guarded g body) h outcome := by
  have hrun : .outcome outcome ∈ (run (.guarded g body) h).2.log ↔
      .outcome outcome ∈ (g.run body.run h).2.log ∨ (g.run body.run h).1 = .ok outcome := by
    unfold run runGuarded
    rcases g.run body.run h with ⟨halt | came, after⟩
    · simp
    · simp [Host.note, eq_comm]
  rw [hrun, Guard.log_run, hbody, Guard.log_enter, notes_guarded, or_assoc,
    or_comm (a := Notes body _ _)]

/-- The outcomes in the log are those that the guards came to. -/
theorem mem_log_iff (hp : OnlyGuards program) : .outcome outcome ∈ (program.run h).2.log ↔
    .outcome outcome ∈ h.log ∨ Notes program h outcome := by
  induction hp generalizing h with
  | value v => exact mem_log_of_no_guard rfl (by rintro gs g body h' ⟨⟩)
  | call b arguments =>
    refine mem_log_of_no_guard ?_ (by rintro gs g body h' ⟨⟩)
    unfold run callBody
    rcases b.call arguments h.world with ⟨(f | payload | id) | v, w⟩
    case error.fault => exact Host.log_noteFault
    all_goals rfl
  | raise payload => exact mem_log_of_no_guard Host.log_noteFault (by rintro gs g body h' ⟨⟩)
  | done => exact mem_log_of_no_guard rfl (by rintro gs g body h' ⟨⟩)
  | @next body rest hbody hrest ihbody ihrest =>
    rcases hrun : body.run h with ⟨halt | v, between⟩
    · rw [notes_next_of_error hrun, ← ihbody, run_next_of_error hrun, hrun]
    · have hlog : (run (.sequence (body :: rest)) h).2.log =
          (run (.sequence rest) between).2.log := by
        rw [run_next_of_ok hrun]
        split
        · next hnil =>
          subst hnil
          rfl
        · rfl
      rw [hlog, ihrest, notes_next_of_ok hrun, ← or_assoc, ← ihbody, hrun]
  | guarded g hbody ih => exact mem_log_guarded ih
  | @announced g body hbody ih =>
    have hrun : run (.announced g body) h = run (.guarded g body) (h.note (.policy g.policy)) := by
      simp only [run]
    have hnote : .outcome outcome ∈ (h.note (.policy g.policy)).log ↔ .outcome outcome ∈ h.log := by
      simp [Host.note]
    rw [hrun, mem_log_guarded ih, hnote, notes_announced]

/-! ## The laws -/

structure GuardedRun (g : Guard) (body : HostProgram) (h : Host) : Prop where
  /-- The flag is as it was, also where a fault unwinds out of the run. -/
  restored : (g.run body.run h).2.active = h.active
  /-- A guard that returns leaves no site behind. -/
  emptied {outcome : Outcome} : (g.run body.run h).1 = .ok outcome →
    (g.run body.run h).2.lastFault = none
  /-- A guard that catches turns a fault into an outcome if none inside it does; it has no other
  such outcome, and the outcome is about this fault. -/
  faulted {error : Value} {diagnostic : String} :
    (g.run body.run h).1 = .ok (.faulted error diagnostic) ↔
      g.Catches ∧ ∃ payload, Uncaught body (g.enter h) payload ∧
        error = .error ("execution fault: " ++ payload.message) ∧
        diagnostic = g.diagnosis payload.message
  /-- Any other guard lets such a fault pass, and nothing else unwinds out of a guard. -/
  passed {payload : Payload} : (g.run body.run h).1 = .error (.fault payload) ↔
    ¬ g.Catches ∧ Uncaught body (g.enter h) payload
  /-- The diagnostic ends with a backtrace exactly if this guard asked for one. -/
  backtraced {error : Value} {diagnostic : String} {payload : Payload} :
    (g.run body.run h).1 = .ok (.faulted error diagnostic) → Uncaught body (g.enter h) payload →
      ((∃ frames, diagnostic = "panicked at " ++ Host.location ++ ": " ++ payload.message ++
        ("\nbacktrace:\n" ++ frames)) ↔ g.backtrace)
  /-- A guard completes, under any policy, exactly if its body comes to a value; -/
  completed {v : Value} :
    (g.run body.run h).1 = .ok (.completed v) ↔ (body.run (g.enter h)).1 = .ok v
  /-- it then adds nothing to what its body did. -/
  unchanged {v : Value} : (body.run (g.enter h)).1 = .ok v →
    (g.run body.run h).2 = { (body.run (g.enter h)).2 with active := h.active }
  /-- Only the policy that logs reports the fault as an event. -/
  reported {payload : Payload} : Uncaught body (g.enter h) payload →
    (g.run body.run h).2.world =
      let w := (body.run (g.enter h)).2.world
      if g.policy = .log then { w with events := w.events ++ [.caughtFault payload.message] }
      else w

structure GuardLaws (program : HostProgram) (h : Host) : Prop where
  /-- Everywhere in the run, the flag is that of the innermost guard that catches, and no site is
  recorded. -/
  live {gs : List Guard} {point : Point} {h' : Host} : Reaches program h gs point h' →
    h'.active = flag h.active gs ∧ h'.lastFault = none
  /-- Every guard that is run keeps its laws. -/
  guards {gs : List Guard} {g : Guard} {body : HostProgram} {h' : Host} :
    Reaches program h gs (.guard g body) h' → GuardedRun g body h'
  /-- A fault is turned into an outcome by the innermost guard around it that catches. -/
  caught {outer inner : List Guard} {g : Guard} {payload : Payload} {h' : Host} :
    Reaches program h (outer ++ g :: inner) (.fault payload) h' → g.Catches →
      (∀ i ∈ inner, ¬ i.Catches) →
      ∃ body started, Reaches program h outer (.guard g body) started ∧
        Reaches body (g.enter started) inner (.fault payload) h' ∧
        (g.run body.run started).1 =
          .ok (.faulted (.error ("execution fault: " ++ payload.message))
            (g.diagnosis payload.message))
  /-- A fault escapes from the program exactly if no guard around it catches. -/
  escaped (payload : Payload) :
    (program.run h).1 = .error (.fault payload) ↔ Uncaught program h payload
  /-- The log holds the outcomes of all guards that were run, and no others. -/
  noted (outcome : Outcome) : .outcome outcome ∈ (program.run h).2.log ↔
    .outcome outcome ∈ h.log ∨ Notes program h outcome

namespace Settles

theorem active {result : Except Halt Outcome × Host} (hs : Settles g body h result) :
    result.2.active = h.active := by
  cases hs with
  | caught => exact Guard.active_caught
  | _ => rfl

theorem lastFault {result : Except Halt Outcome × Host} (hs : Settles g body h result)
    (hresult : result.1 = .ok outcome) : result.2.lastFault = none := by
  cases hs with
  | completed hbody hfree => exact hfree
  | caught => exact Guard.lastFault_caught
  | passed | halted => cases hresult

/-- What a guard returned, and what its body came to. -/
theorem of_ok {result : Except Halt Outcome × Host} (hs : Settles g body h result)
    (hresult : result.1 = .ok outcome) :
    (∃ v, (body.run (g.enter h)).1 = .ok v ∧ outcome = .completed v) ∨
    (g.Catches ∧ ∃ payload, Uncaught body (g.enter h) payload ∧
      outcome = .faulted (.error ("execution fault: " ++ payload.message))
        (g.diagnosis payload.message)) := by
  cases hs with
  | completed hbody hfree =>
    obtain rfl := Except.ok.inj hresult
    exact .inl ⟨_, by rw [hbody], rfl⟩
  | caught hbody hg huncaught hsite =>
    obtain rfl := Except.ok.inj hresult
    exact .inr ⟨hg, _, huncaught, Guard.outcome_caught hsite⟩
  | passed | halted => cases hresult

/-- A guard that a fault unwinds out of. -/
theorem of_fault {result : Except Halt Outcome × Host} (hs : Settles g body h result)
    (hresult : result.1 = .error (.fault payload)) :
    ¬ g.Catches ∧ Uncaught body (g.enter h) payload := by
  cases hs with
  | passed hbody hg huncaught hsite =>
    cases hresult
    exact ⟨hg, huncaught⟩
  | halted hbody hhalt hfree => exact absurd (Except.error.inj hresult) (hhalt payload)
  | completed | caught => cases hresult

/-- A guard whose body comes to a value returns it. -/
theorem of_body_ok {v : Value} (hs : Settles g body h (g.run body.run h))
    (hbody : (body.run (g.enter h)).1 = .ok v) :
    g.run body.run h =
      (.ok (.completed v), { (body.run (g.enter h)).2 with active := h.active }) := by
  generalize g.run body.run h = result at hs
  cases hs with
  | completed hrun hfree =>
    rw [hrun] at hbody ⊢
    cases hbody
    rfl
  | caught hrun | passed hrun | halted hrun =>
    rw [hrun] at hbody
    cases hbody

/-- A guard whose body is left by a fault catches it or lets it pass. -/
theorem of_body_fault (hs : Settles g body h (g.run body.run h))
    (hbody : (body.run (g.enter h)).1 = .error (.fault payload)) :
    (g.run body.run h).1 =
        (if g.Catches then
          .ok (.faulted (.error ("execution fault: " ++ payload.message))
            (g.diagnosis payload.message))
        else .error (.fault payload)) ∧
      (g.run body.run h).2.world =
        let w := (body.run (g.enter h)).2.world
        if g.policy = .log then { w with events := w.events ++ [.caughtFault payload.message] }
        else w := by
  generalize g.run body.run h = result at hs
  cases hs with
  | caught hrun hg huncaught hsite =>
    rw [hrun] at hbody ⊢
    cases hbody
    rw [if_pos hg]
    exact ⟨congrArg Except.ok (Guard.outcome_caught hsite), Guard.world_caught⟩
  | passed hrun hg =>
    rw [hrun] at hbody ⊢
    cases hbody
    have hlog : g.policy ≠ .log := fun hlog => hg (by rw [Guard.Catches, hlog]; decide)
    rw [if_neg hg]
    exact ⟨rfl, by simp [hlog]⟩
  | halted hrun hhalt =>
    rw [hrun] at hbody
    exact absurd (Except.error.inj hbody) (hhalt payload)
  | completed hrun =>
    rw [hrun] at hbody
    cases hbody

/-- A guard whose run ends in one of the known ways keeps the laws. -/
theorem guardedRun (hs : Settles g body h (g.run body.run h)) : GuardedRun g body h where
  restored := hs.active
  emptied := hs.lastFault
  faulted {error diagnostic} := by
    constructor
    · intro hrun
      rcases hs.of_ok hrun with ⟨v, -, houtcome⟩ | ⟨hg, payload, huncaught, houtcome⟩
      · cases houtcome
      · cases houtcome
        exact ⟨hg, payload, huncaught, rfl, rfl⟩
    · rintro ⟨hg, payload, huncaught, rfl, rfl⟩
      rw [(hs.of_body_fault huncaught.escapes).1, if_pos hg]
  passed {payload} := by
    refine ⟨hs.of_fault, ?_⟩
    rintro ⟨hg, huncaught⟩
    rw [(hs.of_body_fault huncaught.escapes).1, if_neg hg]
  backtraced {error diagnostic payload} hrun huncaught := by
    rw [(hs.of_body_fault huncaught.escapes).1] at hrun
    split at hrun
    · cases hrun
      exact g.diagnosis_backtrace payload.message
    · cases hrun
  completed {v} := by
    constructor
    · intro hrun
      rcases hs.of_ok hrun with ⟨v, hbody, houtcome⟩ | ⟨hg, payload, huncaught, houtcome⟩
      · cases houtcome
        exact hbody
      · cases houtcome
    · intro hbody
      rw [hs.of_body_ok hbody]
  unchanged hbody := by rw [hs.of_body_ok hbody]
  reported huncaught := (hs.of_body_fault huncaught.escapes).2

end Settles

/-- Programs in which guards alone catch faults keep the laws of guards, on any thread on which no
fault is recorded. -/
theorem guardLaws_of_onlyGuards (hp : OnlyGuards program) (hfree : h.lastFault = none) :
    GuardLaws program h where
  live hr := ⟨(hr.live hp hfree).1, (hr.live hp hfree).2.1⟩
  guards hr := (hr.settles hp hfree).guardedRun
  caught hr hg hinner := by
    obtain ⟨body, started, hstart, hinside⟩ := hr.split rfl
    refine ⟨body, started, hstart, hinside, ?_⟩
    rw [((hstart.settles hp hfree).of_body_fault (hinside.escapes hinner)).1, if_pos hg]
  escaped payload := by
    refine ⟨fun hrun => ?_, Uncaught.escapes⟩
    have hends := ends_run hp hfree
    rw [← Prod.eta (program.run h), hrun] at hends
    exact hends.2.2
  noted outcome := mem_log_iff hp

/-- A program in which one guard catches a fault, and the next fault passes a guard. -/
def nested : HostProgram :=
  .guarded ⟨.log, true⟩ (.sequence [
    .guarded ⟨.catchSilently, false⟩ (.raise (.text "inner")),
    .guarded ⟨.propagate, false⟩ (.raise .other)])

/-- The fault that passes a guard is caught by the outermost one, which asked for a backtrace. -/
theorem guardLaws_nested :
    OnlyGuards nested ∧ (Host.ofWorld .bare).lastFault = none ∧
      GuardLaws nested (Host.ofWorld .bare) ∧
      (nested.run (Host.ofWorld .bare)).1 = .ok (.error "execution fault: unknown panic payload") ∧
      (nested.run (Host.ofWorld .bare)).2.log = [
        .outcome (.faulted (.error "execution fault: inner") "panicked at <location>: inner"),
        .outcome (.faulted (.error "execution fault: unknown panic payload")
          "panicked at <location>: unknown panic payload\nbacktrace:\n<frames>")] := by
  have hp : OnlyGuards nested :=
    .guarded _ (.next (.guarded _ (.raise _)) (.next (.guarded _ (.raise _)) .done))
  exact ⟨hp, rfl, guardLaws_of_onlyGuards hp rfl, rfl, rfl⟩

end HostProgram

end ScriptValues
