import ScriptValues.Proofs.ExactArithmetic
import ScriptValues.Proofs.Signatures

/-!
# The calling convention

Every registered builtin keeps one convention. The number of arguments is checked before anything
else and never again. A type failure blames the first argument of a kind that is not taken at its
position, and its text names the kinds that are. Every failure carries the name that was called, and
the error value begins with it. Names bound to one operation differ in that alone.

* `Operation.obeys`: every operation obeys its signature, unless it waits.
* `Builtin.Conventional`: the laws of a call.
* `Builtin.conventional_of_lookup`: every call of a registered builtin obeys them.
-/

namespace ScriptValues

open Signature

/-! ## Operations that are not computations -/

variable {values : List Value} {w : World}

namespace Arithmetic

variable {sig : Signature} {operator : BinaryOperator} {left right : Value}

theorem obeys_onIntegers (x y : Int64) :
    Obeys sig values fun name => onIntegers ⟨name, values⟩ operator x y := by
  cases operator
  case add | subtract | multiply => exact obeys_orOverflow
  all_goals exact .ite (fun _ => .fail (by simp) (by simp)) fun _ => obeys_orOverflow

theorem obeys_onDoubles (x y : Float) :
    Obeys sig values fun name => onDoubles ⟨name, values⟩ operator x y := by
  cases operator
  case divide | remainder => exact .ite (fun _ => .fail (by simp) (by simp)) fun _ => .answers _
  all_goals exact .answers _

/-- A pair that is not supported is blamed on its first operand that is not accepted. -/
theorem obeys_blame (h0 : values[0]? = some left) (h1 : values[1]? = some right)
    (h : ¬ Supports operator left right) :
    Obeys [accepted operator, accepted operator] values fun name =>
      blame ⟨name, values⟩ operator left := by
  refine .ite (fun hl => ?_) fun hl => .mismatch acceptedBefore_zero h0 rfl hl
  have hr : right.kind ∉ accepted operator := fun hr => h (supports_of_accepted hl hr)
  exact .mismatch (acceptedBefore_zero.next h0 hl) h1 rfl hr

theorem obeys_apply (h0 : values[0]? = some left) (h1 : values[1]? = some right) :
    Obeys [accepted operator, accepted operator] values fun name =>
      apply ⟨name, values⟩ operator (coerce left right operator) := by
  by_cases hs : Supports operator left right
  · rcases hs with ⟨hl, hr⟩ | hj
    · cases left with
      | int x =>
        cases right with
        | int y => exact obeys_onIntegers x y
        | float y => exact obeys_onDoubles _ y
        | _ => cases hr
      | float x =>
        cases right with
        | int y => exact obeys_onDoubles x _
        | float y => exact obeys_onDoubles x y
        | _ => cases hr
      | _ => cases hl
    · rw [coerce_texts hj fun _ => false]
      exact .ite (fun _ => .answers _) fun hadd => absurd hj.1 hadd
  · simp only [coerce_unsupported hs, apply_unsupported hs]
    exact obeys_blame h0 h1 hs

end Arithmetic

namespace Operation

theorem result_of_arithmeticStep (operator : BinaryOperator) (a : Arguments) :
    (arithmeticStep operator a w).1 =
      Arithmetic.operands a operator >>= Arithmetic.apply a operator := by
  rw [arithmeticStep_run]
  cases Arithmetic.operands a operator <;> rfl

theorem result_of_readFileStep (a : Arguments) :
    (readFileStep a w).1 = a.string 0 >>= fun path =>
      match w.files.readText path with
      | .ok s => .ok (.string s)
      | .error e => a.fail (.io ("cannot read '" ++ path ++ "': " ++ e.message)) := by
  simp only [readFileStep, Step.bind_run, Step.ofResult_run]
  cases a.string 0 with
  | error halt => rfl
  | ok path =>
    simp only [Step.report_run, Step.get_run, Result.ok_bind]
    cases w.files.readText path <;> rfl

theorem result_of_writeFileStep (a : Arguments) :
    (writeFileStep a w).1 = a.string 0 >>= fun path => a.string 1 >>= fun content =>
      match w.files.writeText path content with
      | .ok _ => .ok .null
      | .error e => a.fail (.io ("cannot write '" ++ path ++ "': " ++ e.message)) := by
  simp only [writeFileStep, Step.bind_run, Step.ofResult_run]
  cases a.string 0 with
  | error halt => rfl
  | ok path =>
    cases a.string 1 with
    | error halt => rfl
    | ok content =>
      simp only [Step.report_run, Step.get_run, Result.ok_bind]
      cases w.files.writeText path content <;> rfl

theorem result_of_awaitStep (a : Arguments) :
    (awaitStep a w).1 = a.future 0 >>= fun id =>
      match w.futures.read? id with
      | some (v, _) => .ok v
      | none => .error (.waiting id) := by
  simp only [awaitStep, Step.bind_run, Step.ofResult_run]
  cases a.future 0 with
  | error halt => rfl
  | ok id =>
    simp only [Step.get_run, Result.ok_bind]
    cases w.futures.read? id <;> rfl

theorem obeys_arithmeticStep (operator : BinaryOperator) :
    Obeys [Arithmetic.accepted operator, Arithmetic.accepted operator] values fun name =>
      (arithmeticStep operator ⟨name, values⟩ w).1 := by
  simp only [result_of_arithmeticStep, Arithmetic.operands, bind_assoc, pure_bind]
  refine .value rfl fun left h0 => ?_
  refine .value rfl fun right h1 => ?_
  exact Arithmetic.obeys_apply h0 h1

theorem obeys_readLineStep {sig : Signature} :
    Obeys sig values fun name => (readLineStep ⟨name, values⟩ w).1 := by
  by_cases hend : (Console.takeLine w.input).1.isEmpty
  · simp only [readLineStep, Step.bind_run, Step.get_run, Step.set_run, hend, if_true]
    exact .answers _
  · simp only [readLineStep, Step.bind_run, Step.get_run, Step.set_run, hend]
    cases utf8Text? (Console.takeLine w.input).1 with
    | some s => exact .answers _
    | none => exact .fail (by simp) (by simp)

theorem obeys_readFileStep :
    Obeys [[.string]] values fun name => (readFileStep ⟨name, values⟩ w).1 := by
  simp only [result_of_readFileStep]
  refine .string acceptedBefore_zero rfl fun path _ => ?_
  cases w.files.readText path with
  | ok s => exact .answers _
  | error e => exact .fail (by simp) (by simp)

theorem obeys_writeFileStep :
    Obeys [[.string], [.string]] values fun name => (writeFileStep ⟨name, values⟩ w).1 := by
  simp only [result_of_writeFileStep]
  refine .string acceptedBefore_zero rfl fun path h1 => ?_
  refine .string h1 rfl fun content _ => ?_
  cases w.files.writeText path content with
  | ok files => exact .answers _
  | error e => exact .fail (by simp) (by simp)

/-- A future is given whose promise is still open. -/
def Waits (op : Operation) (values : List Value) (w : World) : Prop :=
  op = .await ∧ ∃ id, values[0]? = some (.future id) ∧ w.futures.read? id = none

/-- What waits changes nothing. -/
theorem run_of_waits {op : Operation} (h : op.Waits values w) :
    ∃ id, ∀ name, op.run ⟨name, values⟩ w = (.error (.waiting id), w) := by
  obtain ⟨rfl, id, hid, hread⟩ := h
  refine ⟨id, fun name => ?_⟩
  have hfuture : (⟨name, values⟩ : Arguments).future 0 = .ok id := Arguments.future_eq_ok.2 hid
  simp [run, awaitStep, hfuture, hread]

theorem obeys_awaitStep (h : ¬ Waits .await values w) :
    Obeys [[.future]] values fun name => (awaitStep ⟨name, values⟩ w).1 := by
  simp only [result_of_awaitStep]
  refine .future acceptedBefore_zero rfl fun id hid _ => ?_
  cases hread : w.futures.read? id with
  | some answer => exact .answers _
  | none => exact absurd ⟨rfl, id, hid, hread⟩ h

def signature : Operation → Signature
  | .compute c => c.signature
  | .arithmetic operator => [Arithmetic.accepted operator, Arithmetic.accepted operator]
  | .print | .readLine => []
  | .readFile => [[.string]]
  | .writeFile => [[.string], [.string]]
  | .await => [[.future]]

/-- An operation obeys its signature, whatever its arguments are, unless it waits. -/
theorem obeys {op : Operation} (h : ¬ op.Waits values w) :
    Obeys op.signature values fun name => (op.run ⟨name, values⟩ w).1 := by
  cases op with
  | compute c => exact c.obeys w.futures.isResolved values
  | arithmetic operator => exact obeys_arithmeticStep operator
  | print => exact .answers _
  | readLine => exact obeys_readLineStep
  | readFile => exact obeys_readFileStep
  | writeFile => exact obeys_writeFileStep
  | await => exact obeys_awaitStep h

/-- Arguments of an accepted number reach the end of the signature. -/
theorem signature_length_le {op : Operation} {n : Nat} (h : op.arity.accepts n) :
    op.signature.length ≤ n := by
  cases op with
  | compute c =>
    cases c <;> exact Nat.le_of_eq (beq_iff_eq.1 h).symm
  | arithmetic operator => exact Nat.le_of_eq (beq_iff_eq.1 h).symm
  | readFile | writeFile | await => exact Nat.le_of_eq (beq_iff_eq.1 h).symm
  | print | readLine => exact Nat.zero_le n

end Operation

/-! ## The wording of an expectation -/

namespace Expectation

/-- The wording of an expectation names a kind. -/
def Names (e : Expectation) (k : Kind) : Prop := k.name.toList <:+: e.text.toList

instance (e : Expectation) (k : Kind) : Decidable (e.Names k) :=
  inferInstanceAs (Decidable (_ <:+: _))

/-- The lists of kinds that an expectation can word. -/
def worded : List (List Kind) := [
  [.string], [.list], [.integer], [.mapping], [.future], [.builtin], [.integer, .float],
  [.integer, .float, .string], [.string, .list, .mapping], [.integer, .float, .bool, .string],
  [.string, .list, .mapping, .null]]

/-- The wording names the kinds that are expected and no others. -/
theorem names_iff {kinds : List Kind} (h : kinds ∈ worded) (k : Kind) :
    (Expectation.kinds kinds).Names k ↔ k ∈ kinds := by
  have hall : ∀ kinds ∈ worded, ∀ k ∈ Kind.all,
      (Expectation.kinds kinds).Names k ↔ k ∈ kinds := by
    decide +kernel
  exact hall kinds h k (Kind.mem_all k)

end Expectation

/-- What is taken at a position is any kind, or can be worded. -/
theorem Operation.takes_worded (op : Operation) (i : Nat) :
    op.signature.takes i = Kind.all ∨ op.signature.takes i ∈ Expectation.worded := by
  have hsig : ∀ kinds ∈ op.signature, kinds = Kind.all ∨ kinds ∈ Expectation.worded := by
    cases op with
    | compute c => cases c <;> decide
    | arithmetic operator => cases operator <;> decide
    | _ => decide
  unfold Signature.takes
  rw [List.getD_eq_getElem?_getD]
  cases hkinds : op.signature[i]? with
  | none => exact .inl rfl
  | some kinds => exact hsig kinds (List.mem_of_getElem? hkinds)

/-! ## Names bound to one operation -/

/-- The same result under another name: only a failure carries one. -/
def Result.renamed {α : Type} (name : String) : Result α → Result α
  | .error (.failure f) => .error (.failure ⟨name, f.cause⟩)
  | r => r

namespace Signature.Obeys

variable {sig : Signature} {α : Type} {r : String → Result α}

theorem renamed (h : Obeys sig values r) (name name' : String) :
    r name' = (r name).renamed name' := by
  cases h <;> rfl

/-- What a failure of such a call says, if no argument is missing. -/
theorem of_failure {name : String} {f : Failure} (h : Obeys sig values r)
    (hlength : sig.length ≤ values.length) (hf : r name = .error (.failure f)) :
    f.builtin = name ∧ (∀ expected got, f.cause ≠ .arity expected got) ∧
      ∀ position expected actual, f.cause = .type position expected actual →
        ∃ i v, position = i + 1 ∧ values[i]? = some v ∧ expected = .kinds (sig.takes i) ∧
          actual = v.kind ∧ v.kind ∉ sig.takes i ∧ sig.AcceptedBefore values i := by
  cases h with
  | answers content => cases hf
  | fails cause harity htype =>
    obtain rfl := Halt.failure.inj (Except.error.inj hf)
    exact ⟨rfl, harity, fun position expected actual h => absurd h (htype position expected actual)⟩
  | @blames i v hv hk hbefore =>
    obtain rfl := Halt.failure.inj (Except.error.inj hf)
    refine ⟨rfl, by simp, fun position expected actual h => ?_⟩
    obtain ⟨rfl, rfl, rfl⟩ := Cause.type.inj h
    exact ⟨i, v, rfl, hv, rfl, rfl, hk, hbefore⟩
  | lacks hi hmissing => omega

end Signature.Obeys

namespace Operation

/-- The name of a call stands in its failure only. -/
theorem renamed_run (op : Operation) (name name' : String) :
    (op.run ⟨name', values⟩ w).1 = Result.renamed name' (op.run ⟨name, values⟩ w).1 := by
  by_cases hw : op.Waits values w
  · obtain ⟨id, hrun⟩ := run_of_waits hw
    rw [hrun, hrun]
    rfl
  · exact (obeys hw).renamed name name'

/-- The one name of an operation that is more than a computation. -/
def soleName? : Operation → Option String
  | .compute _ => none
  | .arithmetic operator => some operator.builtin.name
  | .print => some "print"
  | .readLine => some "ReadLine"
  | .readFile => some "ReadFile"
  | .writeFile => some "WriteFile"
  | .await => some "Await"

theorem eq_compute_of_soleName {op : Operation} (h : op.soleName? = none) :
    ∃ c, op = .compute c := by
  cases op with
  | compute c => exact ⟨c, rfl⟩
  | _ => cases h

end Operation

namespace Builtin

/-- Second names, each with the first name of its operation. -/
def aliases : List (String × String) := [
  ("push", "append"), ("unshift", "prepend"), ("MapGet", "map_get"), ("MapSet", "map_set"),
  ("MapHas", "map_has"), ("MapKeys", "map_keys"), ("MapValues", "map_values"),
  ("MapDelete", "map_delete")]

theorem operation_of_alias : ∀ pair ∈ aliases, ∃ b ∈ lookup? pair.1, ∃ b' ∈ lookup? pair.2,
    b.operation = b'.operation := by
  decide +kernel

theorem name_of_soleName : ∀ b ∈ registry, ∀ name ∈ b.operation.soleName?, b.name = name := by
  decide

variable {b b' : Builtin} {name name' : String}

theorem mem_of_lookup (h : lookup? name = some b) : b ∈ registry := List.mem_of_find?_eq_some h

theorem name_of_lookup (h : lookup? name = some b) : b.name = name := by
  simpa using List.find?_some h

/-- Two registered builtins with one operation are the same, or they only compute. -/
theorem eq_or_compute (hb : b ∈ registry) (hb' : b' ∈ registry)
    (h : b'.operation = b.operation) : b' = b ∨ ∃ c, b.operation = .compute c := by
  cases hname : b.operation.soleName? with
  | none => exact .inr (Operation.eq_compute_of_soleName hname)
  | some name =>
    have hn : b.name = name := name_of_soleName b hb name hname
    have hn' : b'.name = name := name_of_soleName b' hb' name (h ▸ hname)
    left
    cases b
    cases b'
    simp_all

/-! ## The laws of a call -/

/-- The laws of a call of a builtin that was found under a name. -/
structure Conventional (name : String) (b : Builtin) (values : List Value) (w : World) : Prop where
  /-- A call fails for the number of its arguments exactly if that number is not accepted. -/
  arity_failure : (∃ f expected got, (b.tryCall values w).1 = .error (.failure f) ∧
    f.cause = .arity expected got) ↔ ¬ b.arity.accepts values.length
  /-- It then says what was declared and how many there were, and has changed nothing. -/
  arity_reported : ¬ b.arity.accepts values.length →
    b.tryCall values w = (.error (.failure ⟨name, .arity b.arity values.length⟩), w)
  /-- A type failure blames the first argument of a kind that is not taken at its position, and its
  wording names the kinds that are. -/
  blamed {f : Failure} {position : Nat} {expected : Expectation} {actual : Kind} :
    (b.tryCall values w).1 = .error (.failure f) → f.cause = .type position expected actual →
      1 ≤ position ∧ position ≤ values.length ∧
      (∃ v, values[position - 1]? = some v ∧ v.kind = actual) ∧
      (∀ k, expected.Names k ↔ k ∈ b.operation.signature.takes (position - 1)) ∧
      ¬ expected.Names actual ∧ b.operation.signature.AcceptedBefore values (position - 1)
  /-- Arguments that are all taken are not blamed. -/
  not_blamed : b.operation.signature.AcceptedBefore values values.length →
    ∀ f position expected actual, (b.tryCall values w).1 = .error (.failure f) →
      f.cause ≠ .type position expected actual
  /-- A failure carries the name that was called, and its error value begins with it. -/
  named {f : Failure} : (b.tryCall values w).1 = .error (.failure f) → f.builtin = name ∧
    b.call values w = (.ok (.error (name ++ ": " ++ f.cause.text)), (b.tryCall values w).2)
  /-- Another name of the same operation gives the same, up to the name in a failure. -/
  aliased {name' : String} {b' : Builtin} : lookup? name' = some b' →
    b'.operation = b.operation →
      b'.tryCall values w = (Result.renamed name' (b.tryCall values w).1, (b.tryCall values w).2)

/-- What the failure of a call says, if the number of arguments is right. -/
theorem of_failure {f : Failure} (h : b.arity.accepts values.length)
    (hf : (b.tryCall values w).1 = .error (.failure f)) :
    f.builtin = b.name ∧ (∀ expected got, f.cause ≠ .arity expected got) ∧
      ∀ position expected actual, f.cause = .type position expected actual →
        ∃ i v, position = i + 1 ∧ values[i]? = some v ∧
          expected = .kinds (b.operation.signature.takes i) ∧ actual = v.kind ∧
          v.kind ∉ b.operation.signature.takes i ∧
          b.operation.signature.AcceptedBefore values i := by
  rw [tryCall_of_accepts h] at hf
  by_cases hw : b.operation.Waits values w
  · obtain ⟨id, hrun⟩ := Operation.run_of_waits hw
    rw [hrun] at hf
    cases hf
  · exact (Operation.obeys hw).of_failure (Operation.signature_length_le h) hf

theorem name_of_failure {f : Failure} (hf : (b.tryCall values w).1 = .error (.failure f)) :
    f.builtin = b.name := by
  by_cases h : b.arity.accepts values.length
  · exact (of_failure h hf).1
  · rw [tryCall_of_not_accepts h] at hf
    rw [← Halt.failure.inj (Except.error.inj hf)]

theorem tryCall_alias (hb : b ∈ registry) (hb' : b' ∈ registry) (h : b'.operation = b.operation) :
    b'.tryCall values w =
      (Result.renamed b'.name (b.tryCall values w).1, (b.tryCall values w).2) := by
  have harity : b'.arity = b.arity := by rw [arity, arity, h]
  by_cases haccepts : b.arity.accepts values.length
  · rw [tryCall_of_accepts haccepts, tryCall_of_accepts (harity ▸ haccepts), h]
    refine Prod.ext (b.operation.renamed_run b.name b'.name) ?_
    rcases eq_or_compute hb hb' h with rfl | ⟨c, hc⟩
    · rfl
    · rw [hc]
      rfl
  · rw [tryCall_of_not_accepts haccepts, tryCall_of_not_accepts (harity ▸ haccepts), harity]
    rfl

/-- Every registered builtin keeps the convention in every call, and the second names are bound to
the operations of the first ones. -/
theorem conventional_of_lookup :
    (∀ pair ∈ aliases, ∃ b ∈ lookup? pair.1, ∃ b' ∈ lookup? pair.2,
      b.operation = b'.operation) ∧
    ∀ name b, lookup? name = some b → ∀ values w, Conventional name b values w := by
  refine ⟨operation_of_alias, fun name b hb values w => ?_⟩
  obtain rfl := name_of_lookup hb
  constructor
  case arity_failure =>
    constructor
    · rintro ⟨f, expected, got, hf, hcause⟩ haccepts
      exact (of_failure haccepts hf).2.1 expected got hcause
    · intro haccepts
      exact ⟨_, _, _, by rw [tryCall_of_not_accepts haccepts], rfl⟩
  case arity_reported => exact tryCall_of_not_accepts
  case blamed =>
    intro f position expected actual hf hcause
    have haccepts : b.arity.accepts values.length := by
      apply Classical.byContradiction
      intro haccepts
      rw [tryCall_of_not_accepts haccepts] at hf
      rw [← Halt.failure.inj (Except.error.inj hf)] at hcause
      cases hcause
    obtain ⟨i, v, rfl, hv, rfl, rfl, hk, hbefore⟩ :=
      (of_failure haccepts hf).2.2 position expected actual hcause
    have hworded : b.operation.signature.takes i ∈ Expectation.worded := by
      rcases b.operation.takes_worded i with hall | hworded
      · rw [hall] at hk
        exact absurd (Kind.mem_all _) hk
      · exact hworded
    have hi : i < values.length := (List.getElem?_eq_some_iff.1 hv).1
    rw [Nat.add_sub_cancel]
    refine ⟨by omega, by omega, ⟨v, hv, rfl⟩, Expectation.names_iff hworded, ?_, hbefore⟩
    rw [Expectation.names_iff hworded]
    exact hk
  case not_blamed =>
    intro htaken f position expected actual hf hcause
    by_cases haccepts : b.arity.accepts values.length
    · obtain ⟨i, v, -, hv, -, -, hk, -⟩ :=
        (of_failure haccepts hf).2.2 position expected actual hcause
      exact hk (htaken i v (List.getElem?_eq_some_iff.1 hv).1 hv)
    · rw [tryCall_of_not_accepts haccepts] at hf
      rw [← Halt.failure.inj (Except.error.inj hf)] at hcause
      cases hcause
  case named =>
    intro f hf
    have hname := name_of_failure hf
    refine ⟨hname, ?_⟩
    rw [call_run, hf, failureToValue, Failure.toValue, Failure.message, hname]
  case aliased =>
    intro name' b' hb' h
    obtain rfl := name_of_lookup hb'
    exact tryCall_alias (mem_of_lookup hb) (mem_of_lookup hb') h

/-- A second name that blames its first argument although the second one is of any kind. -/
theorem push_blames_first :
    lookup? "push" = some ⟨"push", .compute .append⟩ ∧
      (tryCall ⟨"push", .compute .append⟩ [.int 1, .null] .bare).1 =
        .error (.failure ⟨"push", .type 1 (.kinds [.list]) .integer⟩) ∧
      Conventional "push" ⟨"push", .compute .append⟩ [.int 1, .null] .bare := by
  have hlookup : lookup? "push" = some ⟨"push", .compute .append⟩ := by decide +kernel
  exact ⟨hlookup, rfl, conventional_of_lookup.2 _ _ hlookup _ _⟩

end Builtin

end ScriptValues
