import ScriptValues.Proofs.Handles

/-!
# What a call does to the futures

A call of `await` on a future reads it; any other call leaves all futures as they are. The answer
holds no handle but those of the arguments and of the value that was read.

* `Builtin.call_awaited`: a call that reads a future.
* `Builtin.call_not_awaited`: every other call.
-/

namespace ScriptValues

variable {a : Arguments} {v : Value} {w w' : World}

namespace Operation

open Arguments Result

theorem futures_of_readLineStep : (readLineStep a w).2.futures = w.futures := by
  simp only [readLineStep, Step.bind_run, Step.get_run, Step.set_run]
  split
  · rfl
  · cases utf8Text? (Console.takeLine w.input).1 <;> rfl

theorem futures_of_readFileStep : (readFileStep a w).2.futures = w.futures := by
  simp only [readFileStep, Step.bind_run, Step.ofResult_run]
  cases a.string 0 with
  | error halt => rfl
  | ok path =>
    simp only [Step.report_run, Step.get_run]
    cases w.files.readText path <;> rfl

theorem futures_of_writeFileStep : (writeFileStep a w).2.futures = w.futures := by
  simp only [writeFileStep, Step.bind_run, Step.ofResult_run]
  cases a.string 0 with
  | error halt => rfl
  | ok path =>
    cases a.string 1 with
    | error halt => rfl
    | ok content =>
      simp only [Step.report_run, Step.get_run]
      cases w.files.writeText path content <;> rfl

/-- Arithmetic looks at its operands, reports if one was changed, and computes. -/
theorem arithmeticStep_run (operator : BinaryOperator) (w : World) :
    arithmeticStep operator a w =
      match Arithmetic.operands a operator with
      | .error halt => (.error halt, w)
      | .ok c =>
        (Arithmetic.apply a operator c,
          if c.changed
          then { w with events := w.events ++ [.coerced a.name operator] }
          else w) := by
  simp only [arithmeticStep, Step.bind_run, Step.ofResult_run]
  cases Arithmetic.operands a operator with
  | error halt => rfl
  | ok c => cases hc : c.changed <;> simp [hc]

theorem futures_of_arithmeticStep {operator : BinaryOperator} :
    (arithmeticStep operator a w).2.futures = w.futures := by
  rw [arithmeticStep_run]
  cases Arithmetic.operands a operator with
  | error halt => rfl
  | ok c => cases hc : c.changed <;> simp [hc]

/-- Only `await` touches futures. -/
theorem futures_of_run {op : Operation} (h : op ≠ .await) : (op.run a w).2.futures = w.futures := by
  cases op with
  | compute c => rfl
  | arithmetic operator => exact futures_of_arithmeticStep
  | print => rfl
  | readLine => exact futures_of_readLineStep
  | readFile => exact futures_of_readFileStep
  | writeFile => exact futures_of_writeFileStep
  | await => exact absurd rfl h

/-- What an operation other than `await` answers was made of its arguments. -/
theorem holds_of_run {op : Operation} (hop : op ≠ .await) (h : op.run a w = (.ok v, w')) :
    a.Holds v := by
  cases op with
  | compute c => exact Computation.holds_of_run (Prod.mk.inj h).1
  | arithmetic operator =>
    rw [run, arithmeticStep_run] at h
    cases hc : Arithmetic.operands a operator with
    | error halt =>
      rw [hc] at h
      cases (Prod.mk.inj h).1
    | ok c =>
      rw [hc] at h
      exact holds_of_plain (Arithmetic.handles_of_apply (Prod.mk.inj h).1)
  | print => exact holds_of_plain (Except.ok.inj (Prod.mk.inj h).1 ▸ rfl)
  | readLine =>
    simp only [run, readLineStep, Step.bind_run, Step.get_run, Step.set_run] at h
    split at h
    · exact holds_of_plain (Except.ok.inj (Prod.mk.inj h).1 ▸ rfl)
    · cases hl : utf8Text? (Console.takeLine w.input).1 with
      | none =>
        rw [hl] at h
        cases (Prod.mk.inj h).1
      | some s =>
        rw [hl] at h
        exact holds_of_plain (Except.ok.inj (Prod.mk.inj h).1 ▸ rfl)
  | readFile =>
    simp only [run, readFileStep, Step.bind_run, Step.ofResult_run] at h
    cases hp : a.string 0 with
    | error halt =>
      rw [hp] at h
      cases (Prod.mk.inj h).1
    | ok path =>
      simp only [hp, Step.report_run, Step.get_run] at h
      cases hf : w.files.readText path with
      | error e =>
        rw [hf] at h
        cases (Prod.mk.inj h).1
      | ok s =>
        rw [hf] at h
        exact holds_of_plain (Except.ok.inj (Prod.mk.inj h).1 ▸ rfl)
  | writeFile =>
    simp only [run, writeFileStep, Step.bind_run, Step.ofResult_run] at h
    cases hp : a.string 0 with
    | error halt =>
      rw [hp] at h
      cases (Prod.mk.inj h).1
    | ok path =>
      cases hc : a.string 1 with
      | error halt =>
        rw [hp, hc] at h
        cases (Prod.mk.inj h).1
      | ok content =>
        simp only [hp, hc, Step.report_run, Step.get_run] at h
        cases hf : w.files.writeText path content with
        | error e =>
          rw [hf] at h
          cases (Prod.mk.inj h).1
        | ok files =>
          simp only [hf, Step.bind_run, Step.set_run] at h
          exact holds_of_plain (Except.ok.inj (Prod.mk.inj h).1 ▸ rfl)
  | await => exact absurd rfl hop

/-- `await` on something that is no future fails and changes nothing. -/
theorem awaitStep_of_not_future (h : ∀ id, a.values[0]? ≠ some (.future id)) :
    ∃ f, awaitStep a w = (.error (.failure f), w) := by
  simp only [awaitStep, Step.bind_run, Step.ofResult_run]
  cases hf : a.future 0 with
  | ok id => exact absurd (future_eq_ok.1 hf) (h id)
  | error halt =>
    unfold Arguments.future Arguments.expect Arguments.value at hf
    cases h0 : a.values[0]? with
    | none =>
      simp only [h0, fail, Except.error.injEq] at hf
      exact ⟨_, by rw [← hf]⟩
    | some x =>
      simp only [h0] at hf
      split at hf
      · cases hf
      · simp only [mismatch, fail, Except.error.injEq] at hf
        exact ⟨_, by rw [← hf]⟩

end Operation

namespace Builtin

variable {b : Builtin} {values : List Value} {id : FutureId}

/-- The future that a call reads. -/
def awaited? (b : Builtin) (values : List Value) : Option FutureId :=
  match b.operation, values with
  | .await, [.future id] => some id
  | _, _ => none

theorem call_run (b : Builtin) (values : List Value) (w : World) :
    b.call values w = (failureToValue (b.tryCall values w).1, (b.tryCall values w).2) := rfl

theorem failureToValue_eq_ok {r : Except Halt Value} (h : failureToValue r = .ok v) :
    r = .ok v ∨ ∃ f, r = .error (.failure f) ∧ v = f.toValue := by
  unfold failureToValue at h
  split at h
  · next f => exact .inr ⟨f, rfl, (Except.ok.inj h).symm⟩
  · exact .inl h

theorem tryCall_run (b : Builtin) (values : List Value) (w : World) :
    b.tryCall values w =
      if b.arity.accepts values.length then b.operation.run ⟨b.name, values⟩ w
      else (.error (.failure ⟨b.name, .arity b.arity values.length⟩), w) := by
  unfold tryCall callChecked
  split <;> rfl

theorem tryCall_of_accepts (h : b.arity.accepts values.length) :
    b.tryCall values w = b.operation.run ⟨b.name, values⟩ w := by
  rw [tryCall_run, if_pos h]

theorem tryCall_of_not_accepts (h : ¬ b.arity.accepts values.length) :
    b.tryCall values w = (.error (.failure ⟨b.name, .arity b.arity values.length⟩), w) := by
  rw [tryCall_run, if_neg h]

theorem awaited_eq_some (h : b.awaited? values = some id) :
    b.operation = .await ∧ values = [.future id] := by
  unfold awaited? at h
  split at h
  · next hop => exact ⟨hop, by rw [Option.some.inj h]⟩
  · cases h

theorem awaited_eq_none (h : b.awaited? values = none) (hop : b.operation = .await) :
    ∀ id, values ≠ [.future id] := by
  rintro id rfl
  simp [awaited?, hop] at h

/-- A call of `await` on a future reads it, or waits if there is nothing to read. -/
theorem call_await (hop : b.operation = .await) (id : FutureId) (w : World) :
    b.call [.future id] w =
      match w.futures.read? id with
      | some (v, fs) => (.ok v, { w with futures := fs })
      | none => (.error (.waiting id), w) := by
  have haccepts : b.arity.accepts [Value.future id].length := by rw [arity, hop]; rfl
  rw [call_run, tryCall_of_accepts haccepts, hop]
  simp only [Operation.run, Operation.awaitStep, Step.bind_run, Step.ofResult_run,
    Arguments.future, Arguments.expect, Arguments.value, List.getElem?_cons_zero, Step.get_run]
  cases w.futures.read? id <;> rfl

/-- A call that reads a future answers with its value. -/
theorem call_awaited (ha : b.awaited? values = some id) (h : b.call values w = (.ok v, w')) :
    w.futures.read? id = some (v, w'.futures) := by
  obtain ⟨hop, rfl⟩ := awaited_eq_some ha
  rw [call_await hop] at h
  cases hr : w.futures.read? id with
  | none =>
    rw [hr] at h
    cases h
  | some answer =>
    rw [hr] at h
    obtain ⟨hv, rfl⟩ := Prod.mk.inj h
    rw [← Except.ok.inj hv]

/-- Any other call leaves the futures alone, and makes its answer of its arguments. -/
theorem call_not_awaited (ha : b.awaited? values = none) (h : b.call values w = (.ok v, w')) :
    w'.futures = w.futures ∧ v.handles ⊆ values.flatMap Value.handles := by
  rw [call_run, tryCall_run] at h
  obtain ⟨hv, rfl⟩ := Prod.mk.inj h
  split at hv
  · next haccepts =>
    simp only [haccepts, if_true]
    by_cases hop : b.operation = .await
    · have hnone : ∀ id, values[0]? ≠ some (.future id) := by
        intro id h0
        have hlen : values.length = 1 := by simpa [arity, hop, Operation.arity, Arity.accepts]
          using haccepts
        obtain ⟨x, rfl⟩ := List.length_eq_one_iff.1 hlen
        exact awaited_eq_none ha hop id (by simpa using h0)
      rw [hop, Operation.run] at hv ⊢
      obtain ⟨f, hf⟩ := Operation.awaitStep_of_not_future (a := ⟨b.name, values⟩) (w := w) hnone
      rw [hf] at hv ⊢
      exact ⟨rfl, by rw [← Except.ok.inj hv]; simp [Failure.toValue]⟩
    · refine ⟨Operation.futures_of_run hop, ?_⟩
      rcases failureToValue_eq_ok hv with hr | ⟨f, -, rfl⟩
      · exact Operation.holds_of_run (a := ⟨b.name, values⟩) hop (Prod.ext hr rfl)
      · simp [Failure.toValue]
  · next haccepts =>
    rw [if_neg haccepts]
    exact ⟨rfl, by rw [← Except.ok.inj hv]; simp [Failure.toValue]⟩

end Builtin

end ScriptValues
