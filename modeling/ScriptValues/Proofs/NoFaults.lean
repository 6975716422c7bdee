import ScriptValues.CommandLine
import ScriptValues.Proofs.CallingConvention
import ScriptValues.Proofs.GuardScopes

/-!
# No builtin raises a fault

Host operations that are only defined in range are faults of the host outside it. An operation obeys
its signature whatever its arguments are and however many, and then it answers or fails; so no call
raises a fault, no guard catches one, and no command line reports one.

* `Result.Decided`: a result is an answer or a failure.
* `Signature.Obeys.decided`: this is so for everything that obeys a signature.
* `Builtin.Faultless`: what a guard and the command line make of a call.
* `Builtin.faultless`: this holds of every builtin, and no command line reports a fault.
-/

namespace ScriptValues

/-- A result is an answer or a failure: no fault of the host, and nothing that waits. -/
def Result.Decided {α : Type} (r : Result α) : Prop :=
  ∀ halt, r = .error halt → ∃ f, halt = .failure f

/-- What obeys a signature is decided. -/
theorem Signature.Obeys.decided {α : Type} {sig : Signature} {values : List Value}
    {r : String → Result α} (h : Obeys sig values r) (name : String) : (r name).Decided := by
  cases h with
  | answers content =>
    intro halt hr
    cases hr
  | _ =>
    rintro _ ⟨⟩
    exact ⟨_, rfl⟩

namespace Operation

theorem run_ne_fault (op : Operation) (a : Arguments) (w : World) (payload : Payload) :
    (op.run a w).1 ≠ .error (.fault payload) := by
  intro hfault
  by_cases h : op.Waits a.values w
  · obtain ⟨id, hrun⟩ := run_of_waits h
    rw [hrun] at hfault
    cases hfault
  · obtain ⟨f, hf⟩ := (obeys h).decided a.name _ hfault
    cases hf

end Operation

/-! ## Calls under a guard -/

namespace Builtin

variable {b : Builtin} {values : List Value} {w : World} {h : Host}

/-- The call waits for a future whose promise is still open. -/
def Waits (b : Builtin) (values : List Value) (w : World) : Prop :=
  b.arity.accepts values.length ∧ b.operation.Waits values w

theorem tryCall_of_waits (hw : b.Waits values w) :
    ∃ id, b.tryCall values w = (.error (.waiting id), w) := by
  obtain ⟨id, hrun⟩ := Operation.run_of_waits hw.2
  exact ⟨id, by rw [tryCall_of_accepts hw.1, hrun]⟩

/-- A call that does not wait gives a value. -/
theorem call_of_not_waits (hw : ¬ b.Waits values w) :
    ∃ v, b.call values w = (.ok v, (b.tryCall values w).2) := by
  have hdecided : Result.Decided (b.tryCall values w).1 := by
    by_cases haccepts : b.arity.accepts values.length
    · rw [tryCall_of_accepts haccepts]
      exact (Operation.obeys fun hop => hw ⟨haccepts, hop⟩).decided b.name
    · rw [tryCall_of_not_accepts haccepts]
      rintro _ ⟨⟩
      exact ⟨_, rfl⟩
  rw [call_run]
  cases hr : (b.tryCall values w).1 with
  | ok v => exact ⟨v, rfl⟩
  | error halt =>
    obtain ⟨f, rfl⟩ := hdecided halt hr
    exact ⟨f.toValue, rfl⟩

theorem call_of_waits (hw : b.Waits values w) :
    ∃ id, b.call values w = (.error (.waiting id), w) := by
  obtain ⟨id, hid⟩ := tryCall_of_waits hw
  exact ⟨id, by rw [call_run, hid]; rfl⟩

/-- What holds of every call, on any thread of the host. -/
structure Faultless (b : Builtin) (values : List Value) (h : Host) : Prop where
  /-- The call does not raise a fault. -/
  call_ne_fault : ∀ payload, (b.tryCall values h.world).1 ≠ .error (.fault payload) ∧
    (b.call values h.world).1 ≠ .error (.fault payload)
  /-- Neither does the operation alone, with arguments that the arity does not accept. -/
  operation_ne_fault : ∀ name payload,
    (b.operation.run ⟨name, values⟩ h.world).1 ≠ .error (.fault payload)
  /-- Unless it waits, the call gives a value, and every guard completes with it and leaves the
  thread as it was. -/
  completes : ¬ b.Waits values h.world → ∃ v w, b.call values h.world = (.ok v, w) ∧
    ∀ g : Guard, g.run (callBody b values) h = (.ok (.completed v), { h with world := w })
  /-- A call that waits changes nothing, and waits under every guard too. -/
  waits : b.Waits values h.world → ∃ id, b.call values h.world = (.error (.waiting id), h.world) ∧
    ∀ g : Guard, g.run (callBody b values) h = (.error (.waiting id), h)

/-- A body that only changes the world leaves the thread as it was, once the guard has returned. -/
theorem leave_enter (g : Guard) :
    g.leave h { g.enter h with world := w } = { h with world := w } := by
  unfold Guard.leave Guard.enter
  split <;> rfl

theorem world_enter (g : Guard) : (g.enter h).world = h.world := by
  unfold Guard.enter
  split <;> rfl

theorem run_callBody_of_ok {v : Value} (hcall : b.call values h.world = (.ok v, w)) (g : Guard) :
    g.run (callBody b values) h = (.ok (.completed v), { h with world := w }) := by
  have hbody : callBody b values (g.enter h) = (.ok v, { g.enter h with world := w }) := by
    simp only [callBody, world_enter, hcall]
  rw [Guard.run_of_ok hbody, leave_enter]

theorem run_callBody_of_waiting {id : FutureId}
    (hcall : b.call values h.world = (.error (.waiting id), h.world)) (g : Guard) :
    g.run (callBody b values) h = (.error (.waiting id), h) := by
  have hbody : callBody b values (g.enter h) =
      (.error (.waiting id), { g.enter h with world := h.world }) := by
    simp only [callBody, world_enter, hcall]
  rw [Guard.run_of_error (by simp) hbody, leave_enter]

/-- No call of a builtin raises a fault. -/
theorem faultless_of_any (b : Builtin) (values : List Value) (h : Host) :
    b.Faultless values h where
  call_ne_fault := by
    intro payload
    have htry : (b.tryCall values h.world).1 ≠ .error (.fault payload) := by
      rw [tryCall_run]
      split
      · exact b.operation.run_ne_fault _ _ payload
      · nofun
    refine ⟨htry, ?_⟩
    rw [call_run]
    intro hfault
    cases hr : (b.tryCall values h.world).1 with
    | ok v => simp [hr, failureToValue] at hfault
    | error halt =>
      cases halt <;> simp_all [failureToValue]
  operation_ne_fault := fun name payload => b.operation.run_ne_fault _ _ payload
  completes := by
    intro hw
    obtain ⟨v, hcall⟩ := call_of_not_waits hw
    exact ⟨v, _, hcall, run_callBody_of_ok hcall⟩
  waits := by
    intro hw
    obtain ⟨id, hcall⟩ := call_of_waits hw
    exact ⟨id, hcall, run_callBody_of_waiting hcall⟩

end Builtin

/-! ## The command line -/

namespace CommandLine

variable {w : World}

/-- A fault is reported: the process is aborted, or what it says is the diagnostic of a fault. -/
def Exit.ReportsFault (e : Exit) : Prop :=
  e.code = abortCode ∨ ∃ message site, e.diagnostics = errorReport (faultDiagnostic message site)

theorem argumentValue_ne_future (s : String) (id : FutureId) : argumentValue s ≠ .future id := by
  unfold argumentValue
  split
  · next document _ =>
    cases document with
    | integer n =>
      unfold Document.toValue
      split <;> nofun
    | _ => simp [Document.toValue]
  · nofun

/-- Arguments on a command line are no futures, so no call there waits. -/
theorem not_waits (b : Builtin) (arguments : List String) :
    ¬ b.Waits (arguments.map argumentValue) w := by
  rintro ⟨-, -, id, hid, -⟩
  rw [List.getElem?_map, Option.map_eq_some_iff] at hid
  obtain ⟨s, -, hs⟩ := hid
  exact argumentValue_ne_future s id hs

/-- A call prints its value, and its status is that of an error value or of success. -/
theorem runCall_of_lookup {b : Builtin} {name : String} (guard : Guard) (arguments : List String)
    (hb : Builtin.lookup? name = some b) :
    ∃ v w', b.call (arguments.map argumentValue) w = (.ok v, w') ∧
      runCall guard name arguments w =
        (⟨if v.isError then errorCode else 0,
          w'.output ++ v.inspect w'.futures.isResolved ++ "\n", ""⟩, w') := by
  obtain ⟨v, hcall⟩ := Builtin.call_of_not_waits (not_waits (w := w) b arguments)
  have hrun := Builtin.run_callBody_of_ok (h := .ofWorld w) hcall guard
  exact ⟨v, _, hcall, by simp only [runCall, hb, hrun]⟩

theorem head_append {s : String} {c : Char} (h : s.toList.head? = some c) (t : String) :
    (s ++ t).toList.head? = some c := by
  rw [String.toList_append, List.head?_append, h]
  rfl

/-- The diagnostic of a fault begins with a word of its own. -/
theorem head_faultDiagnostic (message : String) (site : Option FaultSite) :
    (faultDiagnostic message site).toList.head? = some 'p' := by
  cases site with
  | none => exact head_append rfl _
  | some site => exact head_append (head_append (head_append (head_append rfl _) _) _) _

theorem not_reportsFault_of_head {output message : String} {c : Char}
    (hhead : message.toList.head? = some c) (hc : c ≠ 'p') :
    ¬ Exit.ReportsFault ⟨hostErrorCode, output, errorReport message⟩ := by
  rintro (habort | ⟨fault, site, heq⟩)
  · exact absurd habort (show hostErrorCode ≠ abortCode by decide)
  · have hmessage : message = faultDiagnostic fault site := by simpa [errorReport] using heq
    rw [hmessage, head_faultDiagnostic] at hhead
    exact hc (Option.some.inj hhead).symm

theorem not_reportsFault_of_silent {code : Nat} {output : String} (hcode : code ≠ abortCode) :
    ¬ Exit.ReportsFault ⟨code, output, ""⟩ := by
  rintro (habort | ⟨fault, site, heq⟩)
  · exact hcode habort
  · have hlength := congrArg (fun s => s.toList.length) heq
    simp [errorReport, coloured, String.toList_append] at hlength

theorem not_reportsFault_runCall (guard : Guard) (name : String) (arguments : List String) :
    ¬ (runCall guard name arguments w).1.ReportsFault := by
  cases hb : Builtin.lookup? name with
  | none =>
    simp only [runCall, hb]
    have hhead : (unknownBuiltin name).toList.head? = some 'u' :=
      head_append (head_append rfl _) _
    exact not_reportsFault_of_head hhead (by decide)
  | some b =>
    obtain ⟨v, w', -, hrun⟩ := runCall_of_lookup (w := w) guard arguments hb
    rw [hrun]
    refine not_reportsFault_of_silent ?_
    split <;> decide

theorem not_reportsFault_settings (e : SettingsError) (output : String) :
    ¬ Exit.ReportsFault ⟨hostErrorCode, output, errorReport e.message⟩ := by
  cases e with
  | unreadable path reason =>
    have hhead : (SettingsError.unreadable path reason).message.toList.head? = some 'c' :=
      head_append (head_append (head_append rfl _) _) _
    exact not_reportsFault_of_head hhead (by decide)
  | invalid path =>
    have hhead : (SettingsError.invalid path).message.toList.head? = some 'i' :=
      head_append (head_append rfl _) _
    exact not_reportsFault_of_head hhead (by decide)

/-- No request ends in a fault. -/
theorem not_reportsFault_perform (request : Request) :
    ¬ (request.perform w).1.ReportsFault := by
  cases request with
  | help | version | misuse => exact not_reportsFault_of_silent (by decide)
  | run path command =>
    rcases hload : loadSettings path w with ⟨e | settings, w'⟩
    · simp only [Request.perform, hload]
      exact not_reportsFault_settings e ""
    · cases command with
      | list =>
        simp only [Request.perform, hload]
        exact not_reportsFault_of_silent (by decide)
      | call name arguments =>
        simp only [Request.perform, hload]
        exact not_reportsFault_runCall _ name arguments

end CommandLine

/-- Execution faults are out of reach: no call of a builtin raises one, for any arguments and under
any guard, and no command line reports one. -/
theorem Builtin.faultless :
    (∀ (b : Builtin) (values : List Value) (h : Host), b.Faultless values h) ∧
      ∀ (tokens : List String) (w : World), ¬ (CommandLine.run tokens w).1.ReportsFault :=
  ⟨faultless_of_any, fun _ _ => CommandLine.not_reportsFault_perform _⟩

end ScriptValues
