import ScriptValues.HostProgram

/-!
# The state of a thread under nested guards

A program whose faults are all seen by the hook, and caught by guards alone, keeps the state of the
thread in step with its live guards: the flag is that of the innermost guard that catches, and the
slot is empty except while a fault unwinds.

* `HostProgram.Reaches`: a run comes to a point, inside some guards.
* `HostProgram.Settles`: the ways in which the run of a guard can end.
* `HostProgram.ends_run`: the state that every run leaves behind.
* `HostProgram.Reaches.live`: the state at every point that a run comes to.
-/

namespace ScriptValues

namespace Host

variable {h : Host}

/-- What the hook records under a flag. -/
def site? (active : Option Bool) : Option FaultSite :=
  active.map fun backtrace => ⟨location, if backtrace then some frames else none⟩

theorem active_noteFault : h.noteFault.active = h.active := by
  unfold noteFault
  split <;> rfl

theorem lastFault_noteFault (hfree : h.lastFault = none) :
    h.noteFault.lastFault = site? h.active := by
  unfold noteFault
  cases hactive : h.active with
  | none => exact hfree
  | some backtrace => rfl

theorem log_noteFault : h.noteFault.log = h.log := by
  unfold noteFault
  split <;> rfl

end Host

/-! ## One guard -/

namespace Guard

variable {g : Guard} {body : Body Value} {h after : Host} {payload : Payload}

/-- A guard catches faults, or it lets them pass. -/
def Catches (g : Guard) : Prop := g.policy ≠ .propagate

instance (g : Guard) : Decidable g.Catches := inferInstanceAs (Decidable (_ ≠ _))

/-- The host on which the body of a guard runs. -/
def enter (g : Guard) (h : Host) : Host :=
  if g.Catches then { h with active := some g.backtrace } else h

/-- The host on which a guard goes on after its body. -/
def leave (g : Guard) (h after : Host) : Host :=
  if g.Catches then { after with active := h.active } else after

/-- The diagnostic that a guard gives of a fault with this message. -/
def diagnosis (g : Guard) (message : String) : String :=
  "panicked at " ++ Host.location ++ ": " ++ message ++
    if g.backtrace then "\nbacktrace:\n" ++ Host.frames else ""

/-- A backtrace stands in the diagnostic exactly if the guard asked for one. -/
theorem diagnosis_backtrace (g : Guard) (message : String) :
    (∃ frames, g.diagnosis message =
      "panicked at " ++ Host.location ++ ": " ++ message ++ ("\nbacktrace:\n" ++ frames)) ↔
      g.backtrace := by
  cases hflag : g.backtrace with
  | true => exact iff_of_true ⟨Host.frames, by rw [diagnosis, hflag]; rfl⟩ rfl
  | false =>
    refine iff_of_false ?_ Bool.false_ne_true
    rintro ⟨frames, hframes⟩
    -- a text is not longer than itself
    have hlength := congrArg String.length hframes
    simp [diagnosis, hflag, String.length_append] at hlength

@[simp]
theorem lastFault_enter : (g.enter h).lastFault = h.lastFault := by
  unfold enter
  split <;> rfl

@[simp]
theorem log_enter : (g.enter h).log = h.log := by
  unfold enter
  split <;> rfl

theorem active_enter : (g.enter h).active = if g.Catches then some g.backtrace else h.active := by
  unfold enter
  split <;> rfl

theorem log_leave : (g.leave h after).log = after.log := by
  unfold leave
  split <;> rfl

theorem leave_eq (hactive : after.active = (g.enter h).active) :
    g.leave h after = { after with active := h.active } := by
  by_cases hg : g.Catches
  · rw [leave, if_pos hg]
  · rw [active_enter, if_neg hg] at hactive
    rw [leave, if_neg hg, ← hactive]

/-! What is done about a fault that was caught -/

theorem outcome_caught (hsite : h.lastFault = Host.site? (some g.backtrace)) :
    (g.caught payload h).1 =
      .faulted (.error ("execution fault: " ++ payload.message)) (g.diagnosis payload.message) := by
  simp only [caught, faultError, hsite, Host.site?, Option.map_some, faultDiagnostic, diagnosis]
  cases g.backtrace <;> rfl

theorem active_caught : (g.caught payload h).2.active = h.active := by
  unfold caught
  dsimp only
  split <;> rfl

theorem lastFault_caught : (g.caught payload h).2.lastFault = none := by
  unfold caught
  dsimp only
  split <;> rfl

theorem log_caught : (g.caught payload h).2.log = h.log := by
  unfold caught
  dsimp only
  split <;> rfl

theorem world_caught : (g.caught payload h).2.world =
    if g.policy = .log then
      { h.world with events := h.world.events ++ [.caughtFault payload.message] }
    else h.world := by
  unfold caught
  dsimp only
  split <;> rfl

/-! A guard acts on what its body came to -/

theorem run_of_ok {v : Value} (hbody : body (g.enter h) = (.ok v, after)) :
    g.run body h = (.ok (.completed v), g.leave h after) := by
  by_cases hg : g.policy = .propagate <;> simp_all [run, enter, leave, Catches]

theorem run_of_fault (hg : g.Catches)
    (hbody : body (g.enter h) = (.error (.fault payload), after)) :
    g.run body h =
      (.ok (g.caught payload (g.leave h after)).1, (g.caught payload (g.leave h after)).2) := by
  simp_all [run, enter, leave, Catches]

/-- What is no fault is never caught. -/
theorem run_of_error {halt : Halt} (hhalt : g.Catches → ∀ payload, halt ≠ .fault payload)
    (hbody : body (g.enter h) = (.error halt, after)) :
    g.run body h = (.error halt, g.leave h after) := by
  by_cases hg : g.policy = .propagate
  · simp_all [run, enter, leave, Catches]
  · have hnot := hhalt hg
    cases halt <;> simp_all [run, enter, leave, Catches]

theorem log_run : (g.run body h).2.log = (body (g.enter h)).2.log := by
  rcases hbody : body (g.enter h) with ⟨halt | v, after⟩
  · by_cases hcaught : g.Catches ∧ ∃ payload, halt = .fault payload
    · obtain ⟨hg, payload, rfl⟩ := hcaught
      rw [run_of_fault hg hbody, log_caught, log_leave]
    · have hhalt : g.Catches → ∀ payload, halt ≠ .fault payload :=
        fun hg payload h => hcaught ⟨hg, payload, h⟩
      rw [run_of_error hhalt hbody, log_leave]
  · rw [run_of_ok hbody, log_leave]

end Guard

namespace HostProgram

/-- Programs in which guards alone catch faults, and the hook sees every fault. -/
inductive OnlyGuards : HostProgram → Prop
  | value (v : Value) : OnlyGuards (.value v)
  | call (b : Builtin) (arguments : List Value) : OnlyGuards (.call b arguments)
  | raise (payload : Payload) : OnlyGuards (.raise payload)
  | done : OnlyGuards (.sequence [])
  | next {body : HostProgram} {rest : List HostProgram} :
      OnlyGuards body → OnlyGuards (.sequence rest) → OnlyGuards (.sequence (body :: rest))
  | guarded (g : Guard) {body : HostProgram} : OnlyGuards body → OnlyGuards (.guarded g body)
  | announced (g : Guard) {body : HostProgram} : OnlyGuards body → OnlyGuards (.announced g body)

/-! ## Points of a run -/

/-- What a run can come to. -/
inductive Point where
  /-- A fault arises. -/
  | fault (payload : Payload)
  /-- A guard starts to run a body. -/
  | guard (g : Guard) (body : HostProgram)

/-- The run of a program on a host comes to a point, on another host, inside these guards of the
program. The outermost guard is the first. -/
inductive Reaches : HostProgram → Host → List Guard → Point → Host → Prop
  | raise {payload : Payload} {h : Host} : Reaches (.raise payload) h [] (.fault payload) h
  | call {b : Builtin} {arguments : List Value} {h : Host} {payload : Payload} {w : World} :
      b.call arguments h.world = (.error (.fault payload), w) →
      Reaches (.call b arguments) h [] (.fault payload) { h with world := w }
  | first {body : HostProgram} {rest : List HostProgram} {h h' : Host} {gs : List Guard}
      {point : Point} : Reaches body h gs point h' →
      Reaches (.sequence (body :: rest)) h gs point h'
  | later {body : HostProgram} {rest : List HostProgram} {h between h' : Host} {v : Value}
      {gs : List Guard} {point : Point} : body.run h = (.ok v, between) →
      Reaches (.sequence rest) between gs point h' →
      Reaches (.sequence (body :: rest)) h gs point h'
  | start {g : Guard} {body : HostProgram} {h : Host} :
      Reaches (.guarded g body) h [] (.guard g body) h
  | inside {g : Guard} {body : HostProgram} {h h' : Host} {gs : List Guard} {point : Point} :
      Reaches body (g.enter h) gs point h' → Reaches (.guarded g body) h (g :: gs) point h'
  | announced {g : Guard} {body : HostProgram} {h h' : Host} {gs : List Guard} {point : Point} :
      Reaches (.guarded g body) (h.note (.policy g.policy)) gs point h' →
      Reaches (.announced g body) h gs point h'

/-- A fault arises in the run of a program, and no guard of the program around it catches. -/
def Uncaught (program : HostProgram) (h : Host) (payload : Payload) : Prop :=
  ∃ gs h', Reaches program h gs (.fault payload) h' ∧ ∀ g ∈ gs, ¬ g.Catches

variable {program body : HostProgram} {rest : List HostProgram} {h h' after : Host}
  {gs : List Guard} {g : Guard} {point : Point} {payload : Payload}

/-! ## The state that a run leaves behind -/

/-- What a run leaves behind: the flag as it was, and an empty slot, unless a fault goes on
unwinding. -/
def Ends (program : HostProgram) (h : Host) : Except Halt Value × Host → Prop
  | (.error (.fault payload), after) => after.active = h.active ∧
      after.lastFault = Host.site? h.active ∧ Uncaught program h payload
  | (_, after) => after.active = h.active ∧ after.lastFault = none

/-- The ways in which the run of a guard can end. -/
inductive Settles (g : Guard) (body : HostProgram) (h : Host) : Except Halt Outcome × Host → Prop
  | completed {v : Value} {after : Host} : body.run (g.enter h) = (.ok v, after) →
      after.lastFault = none →
      Settles g body h (.ok (.completed v), { after with active := h.active })
  | caught {payload : Payload} {after : Host} :
      body.run (g.enter h) = (.error (.fault payload), after) → g.Catches →
      Uncaught body (g.enter h) payload → after.lastFault = Host.site? (some g.backtrace) →
      Settles g body h (.ok (g.caught payload { after with active := h.active }).1,
        (g.caught payload { after with active := h.active }).2)
  | passed {payload : Payload} {after : Host} :
      body.run (g.enter h) = (.error (.fault payload), after) → ¬ g.Catches →
      Uncaught body (g.enter h) payload → after.lastFault = Host.site? h.active →
      Settles g body h (.error (.fault payload), { after with active := h.active })
  | halted {halt : Halt} {after : Host} : body.run (g.enter h) = (.error halt, after) →
      (∀ payload, halt ≠ .fault payload) → after.lastFault = none →
      Settles g body h (.error halt, { after with active := h.active })

/-- A run that is not left by a fault leaves the slot empty. -/
theorem Ends.of_halt {halt : Halt} (hends : Ends program h (.error halt, after))
    (hhalt : ∀ payload, halt ≠ .fault payload) :
    after.active = h.active ∧ after.lastFault = none := by
  cases halt with
  | fault payload => exact absurd rfl (hhalt payload)
  | _ => exact hends

theorem settles_run (hbody : Ends body (g.enter h) (body.run (g.enter h))) :
    Settles g body h (g.run body.run h) := by
  rcases hrun : body.run (g.enter h) with ⟨halt | v, after⟩ <;> rw [hrun] at hbody
  · by_cases hfault : ∃ payload, halt = .fault payload
    · obtain ⟨payload, rfl⟩ := hfault
      obtain ⟨hactive, hsite, huncaught⟩ := hbody
      rw [Guard.active_enter] at hsite
      by_cases hg : g.Catches
      · rw [if_pos hg] at hsite
        rw [Guard.run_of_fault hg hrun, Guard.leave_eq hactive]
        exact .caught hrun hg huncaught hsite
      · rw [if_neg hg] at hsite
        rw [Guard.run_of_error (fun hcatches => absurd hcatches hg) hrun, Guard.leave_eq hactive]
        exact .passed hrun hg huncaught hsite
    · have hhalt : ∀ payload, halt ≠ .fault payload := fun payload h => hfault ⟨payload, h⟩
      obtain ⟨hactive, hfree⟩ := hbody.of_halt hhalt
      rw [Guard.run_of_error (fun _ => hhalt) hrun, Guard.leave_eq hactive]
      exact .halted hrun hhalt hfree
  · obtain ⟨hactive, hfree⟩ := hbody
    rw [Guard.run_of_ok hrun, Guard.leave_eq hactive]
    exact .completed hrun hfree

/-- What holds after a part of a run holds after the whole. -/
theorem Ends.lift {result : Except Halt Value × Host} {part : HostProgram} {between : Host}
    (hends : Ends part between result) (hactive : between.active = h.active)
    (hlift : ∀ {gs point h'}, Reaches part between gs point h' → Reaches program h gs point h') :
    Ends program h result := by
  obtain ⟨r, after⟩ := result
  unfold Ends at hends ⊢
  rw [hactive] at hends
  split at hends
  · obtain ⟨ha, hsite, gs, h', hreaches, hpass⟩ := hends
    exact ⟨ha, hsite, gs, h', hlift hreaches, hpass⟩
  · exact hends

theorem run_next_of_error {halt : Halt} (hrun : body.run h = (.error halt, after)) :
    run (.sequence (body :: rest)) h = (.error halt, after) := by
  simp only [run, runAll, hrun]

/-- A sequence goes on with its rest. The value of the first part counts only if nothing follows. -/
theorem run_next_of_ok {v : Value} (hrun : body.run h = (.ok v, after)) :
    run (.sequence (body :: rest)) h =
      if rest = [] then (.ok v, after) else run (.sequence rest) after := by
  simp only [run, runAll, hrun]
  cases rest <;> rfl

theorem ends_guarded (hsettles : Settles g body h (g.run body.run h)) :
    Ends (.guarded g body) h (run (.guarded g body) h) := by
  unfold run runGuarded
  rcases hrun : g.run body.run h with ⟨result, after⟩
  rw [hrun] at hsettles
  cases hsettles with
  | completed hbody hfree => exact ⟨rfl, hfree⟩
  | caught hbody hg huncaught hsite => exact ⟨Guard.active_caught, Guard.lastFault_caught⟩
  | passed hbody hg huncaught hsite =>
    obtain ⟨gs, h', hreaches, hpass⟩ := huncaught
    exact ⟨rfl, hsite, g :: gs, h', .inside hreaches, by simpa [hg] using hpass⟩
  | @halted halt after hbody hhalt hfree =>
    cases halt with
    | fault payload => exact absurd rfl (hhalt payload)
    | _ => exact ⟨rfl, hfree⟩

/-- Every run restores the flag. It leaves the slot empty, or a fault goes on unwinding that no
guard around it catches, and the slot holds what the hook records under the flag. -/
theorem ends_run (hp : OnlyGuards program) (hfree : h.lastFault = none) :
    Ends program h (program.run h) := by
  induction hp generalizing h with
  | value v => exact ⟨rfl, hfree⟩
  | call b arguments =>
    unfold run callBody
    rcases hcall : b.call arguments h.world with ⟨(f | payload | id) | v, w⟩
    · exact ⟨rfl, hfree⟩
    · exact ⟨Host.active_noteFault, Host.lastFault_noteFault hfree, [], _, .call hcall, by simp⟩
    · exact ⟨rfl, hfree⟩
    · exact ⟨rfl, hfree⟩
  | raise payload =>
    exact ⟨Host.active_noteFault, Host.lastFault_noteFault hfree, [], h, .raise, by simp⟩
  | done => exact ⟨rfl, hfree⟩
  | @next body rest hbody hrest ihbody ihrest =>
    have hfirst := ihbody hfree
    rcases hrun : body.run h with ⟨halt | v, between⟩ <;> rw [hrun] at hfirst
    · rw [run_next_of_error hrun]
      exact hfirst.lift rfl .first
    · rw [run_next_of_ok hrun]
      -- the first part leaves the state as it was, so the rest starts on such a host too
      split
      · exact hfirst
      · exact (ihrest hfirst.2).lift hfirst.1 (.later hrun)
  | guarded g hbody ih => exact ends_guarded (settles_run (ih (by simpa using hfree)))
  | @announced g body hbody ih =>
    have hnoted : (g.enter (h.note (.policy g.policy))).lastFault = none := by
      rw [Guard.lastFault_enter]
      exact hfree
    exact (ends_guarded (settles_run (ih hnoted))).lift rfl .announced

/-! ## The state at a point of a run -/

/-- The flag of the innermost guard that catches. -/
def flag (outside : Option Bool) (gs : List Guard) : Option Bool :=
  match gs.reverse.find? (·.Catches) with
  | some g => some g.backtrace
  | none => outside

theorem flag_cons (outside : Option Bool) (g : Guard) (gs : List Guard) :
    flag outside (g :: gs) = flag (if g.Catches then some g.backtrace else outside) gs := by
  unfold flag
  rw [List.reverse_cons, List.find?_append]
  cases gs.reverse.find? (·.Catches) with
  | some inner => rfl
  | none => by_cases hg : g.Catches <;> simp [hg]

/-- The body that a guard starts to run is such a program too. -/
def Point.OnlyGuards : Point → Prop
  | .fault _ => True
  | .guard _ body => HostProgram.OnlyGuards body

namespace Reaches

/-- At a point of a run the state is in step with the guards around it. -/
theorem live (hr : Reaches program h gs point h') (hp : OnlyGuards program)
    (hfree : h.lastFault = none) :
    h'.active = flag h.active gs ∧ h'.lastFault = none ∧ point.OnlyGuards := by
  induction hr with
  | raise => exact ⟨rfl, hfree, trivial⟩
  | call hcall => exact ⟨rfl, hfree, trivial⟩
  | first hr ih =>
    cases hp with
    | next hbody hrest => exact ih hbody hfree
  | later hrun hr ih =>
    cases hp with
    | next hbody hrest =>
      have hends := ends_run hbody hfree
      rw [hrun] at hends
      rw [← hends.1]
      exact ih hrest hends.2
  | start =>
    cases hp with
    | guarded _ hbody => exact ⟨rfl, hfree, hbody⟩
  | inside hr ih =>
    cases hp with
    | guarded _ hbody =>
      rw [flag_cons, ← Guard.active_enter]
      exact ih hbody (by simpa using hfree)
  | announced hr ih =>
    cases hp with
    | announced _ hbody => exact ih (.guarded _ hbody) hfree

/-- The run of a guard that a run comes to ends in one of the ways that are known. -/
theorem settles (hr : Reaches program h gs (.guard g body) h') (hp : OnlyGuards program)
    (hfree : h.lastFault = none) : Settles g body h' (g.run body.run h') := by
  obtain ⟨-, hfree', hbody⟩ := hr.live hp hfree
  exact settles_run (ends_run hbody (by simpa using hfree'))

/-- A guard around a point has started to run a body in which the point is reached. -/
theorem split (hr : Reaches program h gs point h') {outer inner : List Guard}
    (hgs : gs = outer ++ g :: inner) :
    ∃ body started, Reaches program h outer (.guard g body) started ∧
      Reaches body (g.enter started) inner point h' := by
  induction hr generalizing outer with
  | raise => simp at hgs
  | call hcall => simp at hgs
  | start => simp at hgs
  | first hr ih =>
    obtain ⟨body, started, hstart, hinside⟩ := ih hgs
    exact ⟨body, started, .first hstart, hinside⟩
  | later hrun hr ih =>
    obtain ⟨body, started, hstart, hinside⟩ := ih hgs
    exact ⟨body, started, .later hrun hstart, hinside⟩
  | inside hr ih =>
    cases outer with
    | nil =>
      obtain ⟨rfl, rfl⟩ := List.cons.inj hgs
      exact ⟨_, _, .start, hr⟩
    | cons g' outer =>
      obtain ⟨rfl, hrest⟩ := List.cons.inj hgs
      obtain ⟨body, started, hstart, hinside⟩ := ih hrest
      exact ⟨body, started, .inside hstart, hinside⟩
  | announced hr ih =>
    obtain ⟨body, started, hstart, hinside⟩ := ih hgs
    exact ⟨body, started, .announced hstart, hinside⟩

/-- A fault that no guard catches ends the run. -/
theorem escapes (hr : Reaches program h gs (.fault payload) h') (hpass : ∀ g ∈ gs, ¬ g.Catches) :
    (program.run h).1 = .error (.fault payload) := by
  generalize hpoint : Point.fault payload = point at hr
  induction hr with
  | raise =>
    cases hpoint
    rfl
  | call hcall =>
    cases hpoint
    unfold run callBody
    rw [hcall]
  | @first body rest h h' gs point hr ih =>
    have hbody := ih hpass hpoint
    rcases hrun : body.run h with ⟨result, between⟩
    rw [hrun] at hbody
    obtain rfl : result = _ := hbody
    rw [run_next_of_error hrun]
  | later hrun hr ih =>
    have hrest := ih hpass hpoint
    rw [run_next_of_ok hrun]
    split
    · next hnil =>
      subst hnil
      cases hrest
    · exact hrest
  | start => cases hpoint
  | @inside g body h h' gs point hr ih =>
    have hbody := ih (fun g hg => hpass g (List.mem_cons_of_mem _ hg)) hpoint
    have hg : ¬ g.Catches := hpass g List.mem_cons_self
    unfold run runGuarded
    rcases hrun : body.run (g.enter h) with ⟨result, after⟩
    rw [hrun] at hbody
    obtain rfl : result = _ := hbody
    rw [Guard.run_of_error (fun hcatches => absurd hcatches hg) hrun]
  | announced hr ih => exact ih hpass hpoint

end Reaches

theorem Uncaught.escapes (hu : Uncaught program h payload) :
    (program.run h).1 = .error (.fault payload) := by
  obtain ⟨gs, h', hr, hpass⟩ := hu
  exact hr.escapes hpass

end HostProgram

end ScriptValues
