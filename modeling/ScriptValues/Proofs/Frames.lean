import ScriptValues.Proofs.CallingConvention
import ScriptValues.Proofs.FilePlaces
import ScriptValues.Proofs.History

/-!
# What a call leaves alone

Each part of the world is changed by one builtin: standard input by `ReadLine`, standard output by
`print`, the files by `WriteFile` and the futures by `Await`. A call whose arguments are rejected
changes nothing and reports nothing.

* `Operation.Effect`: everything that an operation can do to the world.
* `Operation.effect_of_run`: every run of an operation does one of these things.
* `Builtin.Framed`: what a call changes and what it leaves alone.
* `Builtin.framed_of_lookup`: this holds of every call of a registered builtin, and a call in a
  script changes no variable but the one that its value is stored in.
-/

namespace ScriptValues

/-! ## Rejected arguments -/

/-- The arguments are rejected: there are too few or too many, or one is of a wrong kind. -/
def Cause.Rejects : Cause → Prop
  | .arity .. | .type .. => True
  | _ => False

/-- A result that does not reject the arguments. -/
def Result.Accepts {α : Type} (r : Result α) : Prop :=
  ∀ f, r = .error (.failure f) → ¬ f.cause.Rejects

theorem Result.accepts_ok {α : Type} (content : α) : Result.Accepts (.ok content) := nofun

variable {a : Arguments} {w : World}

namespace Arguments

theorem accepts_fail {α : Type} {cause : Cause} (h : ¬ cause.Rejects) :
    Result.Accepts (a.fail cause : Result α) := by
  rintro _ ⟨⟩
  exact h

theorem rejects_of_value {i : Nat} {halt : Halt} (h : a.value i = .error halt) :
    ∃ f, halt = .failure f ∧ f.cause.Rejects := by
  unfold value at h
  split at h
  · cases h
  · exact ⟨_, (Except.error.inj h).symm, trivial⟩

/-- A look that finds nothing rejects the arguments. -/
theorem rejects_of_expect {α : Type} {i : Nat} {kinds : List Kind} {get? : Value → Option α}
    {halt : Halt} (h : a.expect i kinds get? = .error halt) :
    ∃ f, halt = .failure f ∧ f.cause.Rejects := by
  unfold expect at h
  split at h
  · next hv =>
    obtain rfl := Except.error.inj h
    exact rejects_of_value hv
  · split at h
    · cases h
    · exact ⟨_, (Except.error.inj h).symm, trivial⟩

end Arguments

/-! ## Coercion -/

namespace Arithmetic

variable {operator : BinaryOperator} {left right : Value}

/-- Operands are only changed to two doubles, or to two texts that are joined. -/
theorem coerce_changed (h : (coerce left right operator).changed = true) :
    (∃ x y, coerce left right operator = ⟨.float x, .float y, true⟩) ∨
      operator = .add ∧ ∃ s t, coerce left right operator = ⟨.string s, .string t, true⟩ := by
  unfold coerce at h ⊢
  split at h
  · exact .inl ⟨_, _, rfl⟩
  · exact .inl ⟨_, _, rfl⟩
  · split at h
    · split at h
      · next text htext hadd => exact .inr ⟨hadd, _, _, if_pos hadd⟩
      · cases h
    · cases h
  · split at h
    · split at h
      · next text htext hadd => exact .inr ⟨hadd, _, _, if_pos hadd⟩
      · cases h
    · cases h
  · cases h

theorem accepts_onDoubles (x y : Float) : Result.Accepts (onDoubles a operator x y) := by
  unfold onDoubles
  split
  case h_4 | h_5 =>
    split
    · exact Arguments.accepts_fail id
    · exact Result.accepts_ok _
  all_goals exact Result.accepts_ok _

/-- Operands that were changed are accepted. -/
theorem accepts_apply (h : (coerce left right operator).changed = true) :
    Result.Accepts (apply a operator (coerce left right operator)) := by
  rcases coerce_changed h with ⟨x, y, heq⟩ | ⟨hadd, s, t, heq⟩
  · rw [heq]
    exact accepts_onDoubles x y
  · rw [heq]
    subst hadd
    exact Result.accepts_ok _

end Arithmetic

/-! ## What an operation can do -/

namespace Operation

open Arguments Result

/-- What an operation does to the world, and the result that goes with it. -/
inductive Effect (a : Arguments) (w : World) : Operation → Result Value → World → Prop
  | computes {c : Computation} {r : Result Value} : Effect a w (.compute c) r w
  /-- What rejects its arguments changes nothing. -/
  | rejects {op : Operation} {f : Failure} : f.cause.Rejects →
      Effect a w op (.error (.failure f)) w
  | calculates {operator : BinaryOperator} {r : Result Value} :
      Effect a w (.arithmetic operator) r w
  /-- Arithmetic reports that it changed an operand. -/
  | coerces {operator : BinaryOperator} {r : Result Value} : r.Accepts →
      Effect a w (.arithmetic operator) r
        { w with events := w.events ++ [.coerced a.name operator] }
  | prints : Effect a w .print (.ok .null)
      { w with output := w.output ++
        " ".intercalate (a.values.map (Value.inspect w.futures.isResolved)) ++ "\n" }
  | readsLine {r : Result Value} : r.Accepts →
      Effect a w .readLine r { w with input := (Console.takeLine w.input).2 }
  | readsFile {path : String} {r : Result Value} : r.Accepts →
      Effect a w .readFile r { w with events := w.events ++ [.readingFile path] }
  | failsToWrite {path text message : String} :
      Effect a w .writeFile (.error (.failure ⟨a.name, .io message⟩))
        { w with events := w.events ++ [.writingFile path text] }
  | writesFile {path text : String} {files : FileTree} : a.values[0]? = some (.string path) →
      a.values[1]? = some (.string text) → w.files.writeText path text = .ok files →
      Effect a w .writeFile (.ok .null)
        { w with files := files, events := w.events ++ [.writingFile path text] }
  | awaits {id : FutureId} {v : Value} {futures : Futures} : a.values[0]? = some (.future id) →
      w.futures.read? id = some (v, futures) →
      Effect a w .await (.ok v) { w with futures := futures }
  | waits {id : FutureId} : Effect a w .await (.error (.waiting id)) w

/-- An operation that gets no further than its arguments rejects them. -/
theorem effect_of_look {op : Operation} {halt : Halt}
    (h : ∃ f, halt = .failure f ∧ f.cause.Rejects) : Effect a w op (.error halt) w := by
  obtain ⟨f, rfl, hf⟩ := h
  exact .rejects hf

theorem effect_of_arithmeticStep (operator : BinaryOperator) :
    Effect a w (.arithmetic operator) (arithmeticStep operator a w).1
      (arithmeticStep operator a w).2 := by
  rw [arithmeticStep_run]
  cases hc : Arithmetic.operands a operator with
  | error halt => exact .calculates
  | ok c =>
    obtain ⟨left, -, hright⟩ := bind_eq_ok.1 hc
    obtain ⟨right, -, heq⟩ := bind_eq_ok.1 hright
    obtain rfl := pure_eq_ok.1 heq
    cases hchanged : (coerce left right operator).changed with
    | false => simpa [hchanged] using .calculates
    | true => simpa [hchanged] using .coerces (Arithmetic.accepts_apply hchanged)

theorem effect_of_readLineStep :
    Effect a w .readLine (readLineStep a w).1 (readLineStep a w).2 := by
  simp only [readLineStep, Step.bind_run, Step.get_run, Step.set_run]
  split
  · exact .readsLine (accepts_ok _)
  · cases utf8Text? (Console.takeLine w.input).1 with
    | some s => exact .readsLine (accepts_ok _)
    | none => exact .readsLine (accepts_fail id)

theorem effect_of_readFileStep :
    Effect a w .readFile (readFileStep a w).1 (readFileStep a w).2 := by
  simp only [readFileStep, Step.bind_run, Step.ofResult_run]
  cases hpath : a.string 0 with
  | error halt => exact effect_of_look (rejects_of_expect hpath)
  | ok path =>
    simp only [Step.report_run, Step.get_run]
    cases w.files.readText path with
    | ok s => exact .readsFile (accepts_ok _)
    | error e => exact .readsFile (accepts_fail id)

theorem effect_of_writeFileStep :
    Effect a w .writeFile (writeFileStep a w).1 (writeFileStep a w).2 := by
  simp only [writeFileStep, Step.bind_run, Step.ofResult_run]
  cases hpath : a.string 0 with
  | error halt => exact effect_of_look (rejects_of_expect hpath)
  | ok path =>
    cases htext : a.string 1 with
    | error halt => exact effect_of_look (rejects_of_expect htext)
    | ok text =>
      simp only [Step.report_run, Step.get_run]
      cases hwrite : w.files.writeText path text with
      | error e => exact .failsToWrite
      | ok files => exact .writesFile (string_eq_ok.1 hpath) (string_eq_ok.1 htext) hwrite

theorem effect_of_awaitStep : Effect a w .await (awaitStep a w).1 (awaitStep a w).2 := by
  simp only [awaitStep, Step.bind_run, Step.ofResult_run]
  cases hid : a.future 0 with
  | error halt => exact effect_of_look (rejects_of_expect hid)
  | ok id =>
    simp only [Step.get_run]
    cases hread : w.futures.read? id with
    | none => exact .waits
    | some answer => exact .awaits (future_eq_ok.1 hid) hread

theorem effect_of_run (op : Operation) (a : Arguments) (w : World) :
    Effect a w op (op.run a w).1 (op.run a w).2 := by
  cases op with
  | compute c => exact .computes
  | arithmetic operator => exact effect_of_arithmeticStep operator
  | print => exact .prints
  | readLine => exact effect_of_readLineStep
  | readFile => exact effect_of_readFileStep
  | writeFile => exact effect_of_writeFileStep
  | await => exact effect_of_awaitStep

namespace Effect

variable {op : Operation} {r : Result Value} {w' : World}

theorem input (h : Effect a w op r w') (hop : op ≠ .readLine) : w'.input = w.input := by
  cases h <;> first | rfl | exact absurd rfl hop

theorem output (h : Effect a w op r w') (hop : op ≠ .print) : w'.output = w.output := by
  cases h <;> first | rfl | exact absurd rfl hop

theorem files (h : Effect a w op r w') (hop : op ≠ .writeFile) : w'.files = w.files := by
  cases h <;> first | rfl | exact absurd rfl hop

theorem futures (h : Effect a w op r w') (hop : op ≠ .await) : w'.futures = w.futures := by
  cases h <;> first | rfl | exact absurd rfl hop

/-- A write that fails changes no file. -/
theorem files_of_not_ok (h : Effect a w op r w') (hr : ∀ v, r ≠ .ok v) : w'.files = w.files := by
  cases h with
  | writesFile => exact absurd rfl (hr _)
  | _ => rfl

/-- A write that succeeds was given a path and a text. -/
theorem of_writeFile {v : Value} (h : Effect a w .writeFile r w') (hr : r = .ok v) :
    ∃ path text, a.values[0]? = some (.string path) ∧ a.values[1]? = some (.string text) ∧
      w.files.writeText path text = .ok w'.files := by
  cases h with
  | writesFile hpath htext hwrite => exact ⟨_, _, hpath, htext, hwrite⟩
  | _ => cases hr

/-- No future changes but the one that is given. -/
theorem cell (h : Effect a w op r w') {other : FutureId}
    (hother : a.values[0]? ≠ some (.future other)) :
    w'.futures.cell other = w.futures.cell other := by
  cases h with
  | @awaits id v futures hid hread =>
    obtain ⟨-, rfl⟩ := Futures.read_eq_some.1 hread
    have hne : other ≠ id := by
      rintro rfl
      exact hother hid
    exact (Futures.cell_set _ _ _ _).trans (if_neg fun heq => hne heq.1)
  | _ => rfl

/-- What rejects its arguments leaves the world alone and reports nothing. -/
theorem rejected {f : Failure} (h : Effect a w op r w') (hr : r = .error (.failure f))
    (hf : f.cause.Rejects) : w' = w := by
  cases h with
  | coerces hr' | readsLine hr' | readsFile hr' => exact absurd hf (hr' f hr)
  | failsToWrite =>
    obtain rfl := Halt.failure.inj (Except.error.inj hr)
    exact hf.elim
  | prints | writesFile | awaits => cases hr
  | _ => rfl

end Effect

end Operation

/-! ## Calls -/

namespace Builtin

variable {b : Builtin} {values : List Value} {name : String}

/-- What a call changes and what it leaves alone; `w'` is the world that it leaves. -/
structure Framed (name : String) (b : Builtin) (values : List Value) (w w' : World) : Prop where
  /-- An error value in place of a failure makes no difference to the world. -/
  called : b.call values w = (failureToValue (b.tryCall values w).1, w')
  /-- Only `ReadLine` changes standard input. -/
  input : name ≠ "ReadLine" → w'.input = w.input
  /-- Only `print` changes standard output. -/
  output : name ≠ "print" → w'.output = w.output
  /-- It adds the renderings of its arguments with a space between them, and the end of the line. -/
  printed : name = "print" → (b.tryCall values w).1 = .ok .null ∧ w'.output = w.output ++
    " ".intercalate (values.map (Value.inspect w.futures.isResolved)) ++ "\n"
  /-- Only `WriteFile` changes files. -/
  files : name ≠ "WriteFile" → w'.files = w.files
  /-- When it succeeds, the file that its path names has the text as its content, every other place
  is as it was, and `ReadFile` gives the text. -/
  written {v : Value} : name = "WriteFile" → (b.tryCall values w).1 = .ok v →
    ∃ path text place, values = [.string path, .string text] ∧ w.files.target path = .ok place ∧
      w.files.Written w'.files path text place ∧ ∀ reader ∈ lookup? "ReadFile",
        (reader.tryCall [.string path] w').1 = .ok (.string text)
  /-- When it fails, the files are as they were. -/
  unwritten : (∀ v, (b.tryCall values w).1 ≠ .ok v) → w'.files = w.files
  /-- Only `Await` changes futures. -/
  futures : name ≠ "Await" → w'.futures = w.futures
  /-- It changes none but the one that it is given. -/
  awaited (other : FutureId) : values ≠ [.future other] →
    w'.futures.cell other = w.futures.cell other
  /-- A call that fails for the number or the kinds of its arguments changes nothing, and reports
  nothing. -/
  rejected {f : Failure} : (b.tryCall values w).1 = .error (.failure f) → f.cause.Rejects → w' = w

/-- The operations that are more than computations are found under their names. -/
theorem operation_of_name : ∀ b ∈ registry,
    ∀ op ∈ [Operation.print, .readLine, .readFile, .writeFile, .await],
      op.soleName? = some b.name → b.operation = op := by
  decide +kernel

/-- What a call does to the world. -/
theorem effect_of_tryCall (b : Builtin) (values : List Value) (w : World) :
    Operation.Effect ⟨b.name, values⟩ w b.operation (b.tryCall values w).1
      (b.tryCall values w).2 := by
  by_cases haccepts : b.arity.accepts values.length
  · rw [tryCall_of_accepts haccepts]
    exact Operation.effect_of_run _ _ _
  · rw [tryCall_of_not_accepts haccepts]
    exact .rejects trivial

/-- A file that can be read is read. -/
theorem tryCall_readFile {reader : Builtin} {path text : String} {w : World}
    (hreader : reader ∈ lookup? "ReadFile") (hread : w.files.readText path = .ok text) :
    (reader.tryCall [.string path] w).1 = .ok (.string text) := by
  have hop : reader.operation = .readFile :=
    operation_of_name reader (mem_of_lookup hreader) _ (by decide)
      (by rw [name_of_lookup hreader]; rfl)
  have haccepts : reader.arity.accepts [Value.string path].length := by
    rw [arity, hop]
    rfl
  rw [tryCall_of_accepts haccepts, hop]
  show (Operation.readFileStep _ w).1 = _
  rw [Operation.result_of_readFileStep]
  simp [Arguments.string, Arguments.expect, Arguments.value, Value.asString?, Result.ok_bind, hread]

theorem accepts_of_ok {v : Value} {w : World} (h : (b.tryCall values w).1 = .ok v) :
    b.arity.accepts values.length := by
  cases haccepts : b.arity.accepts values.length with
  | true => rfl
  | false =>
    rw [tryCall_of_not_accepts (by simp [haccepts])] at h
    cases h

/-- Every call of a registered builtin keeps to its part of the world. -/
theorem framed (hb : b ∈ registry) (values : List Value) (w : World) :
    Framed b.name b values w (b.tryCall values w).2 := by
  have heffect := effect_of_tryCall b values w
  have named {op : Operation} {sole : String} (hop : op.soleName? = some sole)
      (hne : b.name ≠ sole) : b.operation ≠ op := by
    rintro rfl
    exact hne (name_of_soleName b hb sole hop)
  refine ⟨call_run b values w, fun hne => heffect.input (named rfl hne),
    fun hne => heffect.output (named rfl hne), ?_, fun hne => heffect.files (named rfl hne), ?_, ?_,
    fun hne => heffect.futures (named rfl hne), ?_, heffect.rejected⟩
  · intro hname
    have hop : b.operation = .print := operation_of_name b hb _ (by decide) (by rw [hname]; rfl)
    rw [tryCall_of_accepts (by rw [arity, hop]; rfl), hop]
    exact ⟨rfl, rfl⟩
  · intro v hname hv
    have hop : b.operation = .writeFile := operation_of_name b hb _ (by decide) (by rw [hname]; rfl)
    have haccepts := accepts_of_ok hv
    rw [arity, hop, Operation.arity, Arity.accepts, beq_iff_eq] at haccepts
    obtain ⟨x, y, rfl⟩ := List.length_eq_two.1 haccepts
    rw [hop] at heffect
    obtain ⟨path, text, hpath, htext, hwrite⟩ := heffect.of_writeFile hv
    obtain rfl : x = .string path := by simpa using hpath
    obtain rfl : y = .string text := by simpa using htext
    obtain ⟨place, htarget, hwritten⟩ := FileTree.written_of_writeText hwrite
    exact ⟨path, text, place, rfl, htarget, hwritten,
      fun reader hreader => tryCall_readFile hreader hwritten.reads⟩
  · exact heffect.files_of_not_ok
  · intro other hother
    by_cases hop : b.operation = .await
    · by_cases haccepts : b.arity.accepts values.length
      · rw [arity, hop, Operation.arity, Arity.accepts, beq_iff_eq] at haccepts
        obtain ⟨x, rfl⟩ := List.length_eq_one_iff.1 haccepts
        exact heffect.cell (by simpa using hother)
      · rw [tryCall_of_not_accepts haccepts]
    · rw [heffect.futures hop]

end Builtin

/-! ## Calls in a script -/

namespace Script

variable {s s' : State} {answer : Answer} {b : Builtin} {es : List Expression}
  {result : Option String}

/-- What a call changes in a script, whose arguments it evaluates first. -/
structure CallFramed (b : Builtin) (result : Option String) (s s' : State) : Prop where
  /-- The world is the one that the builtin leaves, after its arguments may have made futures. -/
  called : ∃ values fs v, b.call values (s.withFutures fs).world = (.ok v, s'.world)
  /-- No promise is used up. -/
  promises : s'.promises = s.promises
  /-- No variable changes but the one that the value is stored in. -/
  bindings : ∀ name, result ≠ some name →
    Entries.lookup? name s'.bindings = Entries.lookup? name s.bindings

theorem callFramed (h : perform (.call b es result) s = some (answer, s')) :
    CallFramed b result s s' := by
  obtain ⟨values, s₁, hvalues, h⟩ := bind_eq_some.1 h
  obtain ⟨fs, rfl⟩ : ∃ fs, s₁ = s.withFutures fs := by
    obtain ⟨answer, -, heq⟩ := Option.map_eq_some_iff.1 hvalues
    exact ⟨answer.2, (Prod.mk.inj heq).2.symm⟩
  rw [get_bind] at h
  rcases hcall : b.call values (s.withFutures fs).world with ⟨halt | v, world⟩
  · rw [hcall] at h
    cases h
  · rw [hcall] at h
    obtain ⟨_, s₂, hset, h⟩ := bind_eq_some.1 h
    obtain ⟨-, rfl⟩ := Prod.mk.inj (Option.some.inj hset)
    obtain ⟨_, s₃, hstore, h⟩ := bind_eq_some.1 h
    obtain ⟨-, rfl⟩ := Prod.mk.inj (pure_eq_some.1 h)
    cases result with
    | none =>
      obtain ⟨-, rfl⟩ := Prod.mk.inj (pure_eq_some.1 hstore)
      exact ⟨⟨values, fs, v, hcall⟩, rfl, fun _ _ => rfl⟩
    | some target =>
      obtain ⟨-, rfl⟩ := Prod.mk.inj (Option.some.inj hstore)
      refine ⟨⟨values, fs, v, hcall⟩, rfl, fun name hname => ?_⟩
      have hne : name ≠ target := fun heq => hname (heq ▸ rfl)
      exact (Entries.lookup_insert _ _ _ _).trans (if_neg hne)

end Script

/-- Every call of a registered builtin keeps to its part of the world, and a call in a script to the
variable that its value is stored in. -/
theorem Builtin.framed_of_lookup :
    (∀ name b, lookup? name = some b →
      ∀ values w, Framed name b values w (b.tryCall values w).2) ∧
    ∀ b es result s answer s', Script.perform (.call b es result) s = some (answer, s') →
      Script.CallFramed b result s s' := by
  refine ⟨fun name b hb values w => ?_, fun _ _ _ _ _ _ h => Script.callFramed h⟩
  obtain rfl := name_of_lookup hb
  exact framed (mem_of_lookup hb) values w

/-- A file is written, and a call in a script stores its value. -/
theorem Builtin.framed_writeFile :
    lookup? "WriteFile" = some ⟨"WriteFile", .writeFile⟩ ∧
      (tryCall ⟨"WriteFile", .writeFile⟩ [.string "a", .string "text"] .bare).1 = .ok .null ∧
      Framed "WriteFile" ⟨"WriteFile", .writeFile⟩ [.string "a", .string "text"] .bare
        (tryCall ⟨"WriteFile", .writeFile⟩ [.string "a", .string "text"] .bare).2 ∧
      ∃ answer s', Script.perform (.call ⟨"print", .print⟩ [] (some "x")) ⟨.bare, [], []⟩ =
        some (answer, s') ∧ Script.CallFramed ⟨"print", .print⟩ (some "x") ⟨.bare, [], []⟩ s' := by
  have hlookup : lookup? "WriteFile" = some ⟨"WriteFile", .writeFile⟩ := by decide +kernel
  have hscript : ∃ answer s', Script.perform (.call ⟨"print", .print⟩ [] (some "x"))
      ⟨.bare, [], []⟩ = some (answer, s') := ⟨_, _, rfl⟩
  obtain ⟨answer, s', hperform⟩ := hscript
  exact ⟨hlookup, by rfl, framed_of_lookup.1 _ _ hlookup _ _, answer, s', hperform,
    framed_of_lookup.2 _ _ _ _ _ _ hperform⟩

end ScriptValues
