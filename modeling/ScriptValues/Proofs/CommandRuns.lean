import ScriptValues.Proofs.FilePlaces
import ScriptValues.Proofs.NoFaults

/-!
# What a command line comes to

A run loads the settings before it does anything else, then calls its builtin under the guard that
they ask for. No builtin raises a fault, and none depends on what was reported before. So a run does
what the call alone does in a process that has loaded nothing, and prints the value of the call; and
what the settings say makes no difference to it.

* `Operation.alike_of_run`: what was reported before makes no difference to an operation.
* `CommandLine.runsCall_of_loads`: a run of `call` next to the call itself.
* `CommandLine.settings_unobservable`: two runs of one command under different settings.
-/

namespace ScriptValues

/-! ## Worlds that differ in what was reported -/

/-- The worlds differ at most in the events that were reported. -/
def World.Alike (w w' : World) : Prop := ∃ events, w' = { w with events := events }

namespace World.Alike

variable {w w' w'' : World}

theorem symm (h : w.Alike w') : w'.Alike w := by
  obtain ⟨events, rfl⟩ := h
  exact ⟨w.events, rfl⟩

theorem trans (h : w.Alike w') (h' : w'.Alike w'') : w.Alike w'' := by
  obtain ⟨events, rfl⟩ := h
  obtain ⟨events', rfl⟩ := h'
  exact ⟨events', rfl⟩

theorem input (h : w.Alike w') : w'.input = w.input := by
  obtain ⟨events, rfl⟩ := h
  rfl

theorem output (h : w.Alike w') : w'.output = w.output := by
  obtain ⟨events, rfl⟩ := h
  rfl

theorem files (h : w.Alike w') : w'.files = w.files := by
  obtain ⟨events, rfl⟩ := h
  rfl

theorem futures (h : w.Alike w') : w'.futures = w.futures := by
  obtain ⟨events, rfl⟩ := h
  rfl

end World.Alike

/-- The same result, and worlds that are alike. -/
def Step.SameBut {α : Type} (r r' : Except Halt α × World) : Prop := r.1 = r'.1 ∧ r.2.Alike r'.2

open Step (SameBut)

namespace Operation

variable {a : Arguments} {w w' : World}

theorem alike_of_arithmeticStep (operator : BinaryOperator) (h : w.Alike w') :
    SameBut (arithmeticStep operator a w) (arithmeticStep operator a w') := by
  obtain ⟨events, rfl⟩ := h
  simp only [arithmeticStep_run]
  cases Arithmetic.operands a operator with
  | error halt => exact ⟨rfl, events, rfl⟩
  | ok c =>
    refine ⟨rfl, ?_⟩
    cases hchanged : c.changed with
    | false => exact ⟨events, by simp [hchanged]⟩
    | true => exact ⟨events ++ [.coerced a.name operator], by simp [hchanged]⟩

theorem alike_of_readLineStep (h : w.Alike w') :
    SameBut (readLineStep a w) (readLineStep a w') := by
  obtain ⟨events, rfl⟩ := h
  simp only [readLineStep, Step.bind_run, Step.get_run, Step.set_run]
  cases (Console.takeLine w.input).1.isEmpty with
  | true => exact ⟨rfl, events, rfl⟩
  | false => cases utf8Text? (Console.takeLine w.input).1 <;> exact ⟨rfl, events, rfl⟩

theorem alike_of_readFileStep (h : w.Alike w') :
    SameBut (readFileStep a w) (readFileStep a w') := by
  obtain ⟨events, rfl⟩ := h
  simp only [readFileStep, Step.bind_run, Step.ofResult_run]
  cases a.string 0 with
  | error halt => exact ⟨rfl, events, rfl⟩
  | ok path =>
    simp only [Step.report_run, Step.get_run]
    cases w.files.readText path <;> exact ⟨rfl, events ++ [.readingFile path], rfl⟩

theorem alike_of_writeFileStep (h : w.Alike w') :
    SameBut (writeFileStep a w) (writeFileStep a w') := by
  obtain ⟨events, rfl⟩ := h
  simp only [writeFileStep, Step.bind_run, Step.ofResult_run]
  cases a.string 0 with
  | error halt => exact ⟨rfl, events, rfl⟩
  | ok path =>
    cases a.string 1 with
    | error halt => exact ⟨rfl, events, rfl⟩
    | ok text =>
      simp only [Step.report_run, Step.get_run]
      cases w.files.writeText path text <;> exact ⟨rfl, events ++ [.writingFile path text], rfl⟩

theorem alike_of_awaitStep (h : w.Alike w') : SameBut (awaitStep a w) (awaitStep a w') := by
  obtain ⟨events, rfl⟩ := h
  simp only [awaitStep, Step.bind_run, Step.ofResult_run]
  cases a.future 0 with
  | error halt => exact ⟨rfl, events, rfl⟩
  | ok id =>
    simp only [Step.get_run]
    cases w.futures.read? id <;> exact ⟨rfl, events, rfl⟩

/-- What was reported before makes no difference to an operation. -/
theorem alike_of_run (op : Operation) (h : w.Alike w') : SameBut (op.run a w) (op.run a w') := by
  cases op with
  | compute c =>
    obtain ⟨events, rfl⟩ := h
    exact ⟨rfl, events, rfl⟩
  | arithmetic operator => exact alike_of_arithmeticStep operator h
  | print =>
    obtain ⟨events, rfl⟩ := h
    exact ⟨rfl, events, rfl⟩
  | readLine => exact alike_of_readLineStep h
  | readFile => exact alike_of_readFileStep h
  | writeFile => exact alike_of_writeFileStep h
  | await => exact alike_of_awaitStep h

end Operation

namespace Builtin

variable {b : Builtin} {values : List Value} {w w' after : World} {v : Value}

theorem alike_of_tryCall (h : w.Alike w') : SameBut (b.tryCall values w) (b.tryCall values w') := by
  by_cases haccepts : b.arity.accepts values.length
  · simp only [tryCall_of_accepts haccepts]
    exact b.operation.alike_of_run h
  · simp only [tryCall_of_not_accepts haccepts]
    exact ⟨rfl, h⟩

/-- A call gives the same value in a world that is alike, and leaves one that is alike. -/
theorem call_alike (h : w.Alike w') (hcall : b.call values w = (.ok v, after)) :
    ∃ after', b.call values w' = (.ok v, after') ∧ after.Alike after' := by
  have hsame : SameBut (b.tryCall values w) (b.tryCall values w') := alike_of_tryCall h
  obtain ⟨hresult, hworld⟩ := hsame
  rw [call_run] at hcall
  obtain ⟨hvalue, rfl⟩ := Prod.mk.inj hcall
  exact ⟨_, by rw [call_run, ← hresult, hvalue], hworld⟩

end Builtin

/-! ## Loading settings -/

/-- The world of a process that has not done anything yet. -/
def World.start (input : List UInt8) (files : FileTree) : World := ⟨input, "", files, .empty, []⟩

namespace CommandLine

variable {input : List UInt8} {files : FileTree} {tokens tokens' : List String}
  {path path' : Option String} {command : Command} {settings : Settings} {w : World}

/-- The settings that a request names, or the nearest ones, are there and can be read. -/
def Loads (path : Option String) (w : World) (settings : Settings) : Prop :=
  (loadSettings path w).1 = .ok settings

/-- Loading settings only reports. -/
theorem alike_loadSettings (path : Option String) (w : World) :
    w.Alike (loadSettings path w).2 := by
  cases path with
  | some path => exact ⟨_, rfl⟩
  | none =>
    show w.Alike (Settings.loadDiscovered w.files.currentPath w).2
    delta Settings.loadDiscovered
    cases Settings.discover w.files w.files.currentPath with
    | some path => exact ⟨_, rfl⟩
    | none => exact ⟨w.events, rfl⟩

theorem perform_call (name : String) (arguments : List String) (h : Loads path w settings) :
    (Request.run path (.call name arguments)).perform w =
      runCall settings.guard name arguments (loadSettings path w).2 := by
  rcases hload : loadSettings path w with ⟨r, after⟩
  rw [Loads, hload] at h
  obtain rfl : r = .ok settings := h
  simp only [Request.perform, hload]

/-! ## Naming settings -/

section Naming

/-- A request that takes its settings from elsewhere if it names none. -/
def Request.under (outer : Option String) : Request → Request
  | .run path command => .run (path.or outer) command
  | request => request

variable {outer own : Option String}

theorem readArguments_eq (name : String) :
    readArguments name outer own tokens = (readArguments name none own tokens).under outer := by
  fun_induction readArguments name outer own tokens with
  | case2 own tokens path rest shorter own' honce hitem ih =>
    rw [readArguments.eq_def name none]
    simp only [hitem, honce, ih]
  | _ =>
    rw [readArguments.eq_def name none]
    simp only [*, Option.or_none]
    rfl

theorem readName_eq :
    readName outer own tokens = (readName none own tokens).under outer := by
  fun_induction readName outer own tokens with
  | case2 own tokens path rest shorter own' honce hitem ih =>
    rw [readName.eq_def none]
    simp only [hitem, honce, ih]
  | case10 own tokens rest shorter name hitem =>
    rw [readName.eq_def none, readArguments_eq]
    simp only [hitem]
  | _ =>
    rw [readName.eq_def none]
    simp only [*, Option.or_none]
    rfl

theorem readList_eq :
    readList outer own tokens = (readList none own tokens).under outer := by
  fun_induction readList outer own tokens with
  | case2 own tokens path rest shorter own' honce hitem ih =>
    rw [readList.eq_def none]
    simp only [hitem, honce, ih]
  | _ =>
    rw [readList.eq_def none]
    simp only [*, Option.or_none]
    rfl

variable {path : String} {request : Option String}

theorem under_eq_run {r : Request} (h : r.under outer = .run request command) :
    ∃ inner, r = .run inner command ∧ request = inner.or outer := by
  cases r with
  | run inner command' =>
    obtain ⟨rfl, rfl⟩ := Request.run.inj h
    exact ⟨inner, rfl, rfl⟩
  | _ => cases h

theorem readHelp_ne_run : readHelp tokens ≠ .run request command := by
  fun_cases readHelp tokens <;> simp

/-- Settings that are named before the command count if it names none. -/
theorem isSome_of_readCommand (h : readCommand (some path) tokens = .run request command) :
    request.isSome := by
  have hunder {r : Request} (hr : r.under (some path) = .run request command) :
      request.isSome := by
    obtain ⟨inner, -, rfl⟩ := under_eq_run hr
    cases inner <;> rfl
  revert h
  fun_cases readCommand (some path) tokens with
  | case2 rest again shorter outer honce => cases honce
  | case9 => exact fun h => hunder (readList_eq ▸ h)
  | case10 => exact fun h => hunder (readName_eq ▸ h)
  | case11 => exact fun h => absurd h readHelp_ne_run
  | _ =>
    intro h
    cases h

/-- The option in front of a line that names no settings changes nothing but the settings. -/
theorem ofTokens_settings (hpath : isOptionValue path)
    (h : Request.ofTokens tokens = .run none command) :
    Request.ofTokens ("--config" :: path :: tokens) = .run (some path) command := by
  have hfront :
      Request.ofTokens ("--config" :: path :: tokens) = readCommand (some path) tokens := by
    have htoken : Token.ofText "--config" = .long "config" none := by decide +kernel
    have hitem : nextItem true ("--config" :: path :: tokens) =
        some (.settings "--config" none (path :: tokens)) := by
      simp only [nextItem, htoken]
    rw [Request.ofTokens, readCommand, hitem]
    simp only [Taken.settings, hpath, if_true]
    rfl
  rw [hfront]
  rw [Request.ofTokens] at h
  revert h
  fun_cases readCommand none tokens with
  | case2 rest again shorter outer honce hitem =>
    obtain rfl := Option.some.inj honce
    intro h
    cases isSome_of_readCommand h
  | case9 rest shorter hitem =>
    intro h
    rw [readCommand, hitem]
    simp only
    rw [readList_eq, h]
    rfl
  | case10 rest shorter hitem =>
    intro h
    rw [readCommand, hitem]
    simp only
    rw [readName_eq, h]
    rfl
  | case11 => exact fun h => absurd h readHelp_ne_run
  | _ =>
    intro h
    cases h

end Naming

/-! ## A run next to the call -/

variable {name : String} {arguments : List String} {b : Builtin}

/-- A run of `call NAME ARGUMENTS…` next to the call of the builtin in a process of its own. -/
structure RunsCall (name : String) (arguments : List String) (input : List UInt8)
    (files : FileTree) (exit : Exit) (after : World) : Prop where
  /-- An argument that is the text of a document is its value, and any other is the text. -/
  argument (s : String) : argumentValue s = (Document.ofText? s).elim (.string s) Document.toValue
  /-- The call gives a value. The run leaves the files and the rest of the input as the call does,
  adds the rendering of the value to what the call prints, and its status tells an error value from
  every other. -/
  registered {b : Builtin} : Builtin.lookup? name = some b → ∃ v w,
    b.call (arguments.map argumentValue) (.start input files) = (.ok v, w) ∧
      after.files = w.files ∧ after.input = w.input ∧
      exit.output = w.output ++ v.inspect w.futures.isResolved ++ "\n" ∧
      (exit.code = 2 ↔ ∃ message, v = .error message) ∧
      (exit.code = 0 ↔ ¬ ∃ message, v = .error message)
  /-- Nothing is done for a name that no builtin has. -/
  unknown : Builtin.lookup? name = none →
    exit.code = 1 ∧ exit.output = "" ∧ after.files = files ∧ after.input = input

theorem isError_iff (v : Value) : v.isError ↔ ∃ message, v = .error message := by
  cases v <;> simp [Value.isError, Value.kind]

theorem status_iff (v : Value) :
    ((if v.isError then errorCode else 0) = 2 ↔ ∃ message, v = .error message) ∧
      ((if v.isError then errorCode else 0) = 0 ↔ ¬ ∃ message, v = .error message) := by
  rw [← isError_iff]
  cases v.isError <;> decide

/-- A run of a registered builtin, in a world that settings were loaded in or not. -/
theorem runCall_alike {v : Value} {w w' after : World} (guard : Guard)
    (hb : Builtin.lookup? name = some b) (h : w.Alike w')
    (hcall : b.call (arguments.map argumentValue) w = (.ok v, after)) :
    ∃ after', after.Alike after' ∧ runCall guard name arguments w' =
      (⟨if v.isError then errorCode else 0,
        after.output ++ v.inspect after.futures.isResolved ++ "\n", ""⟩, after') := by
  obtain ⟨after', hcall', hafter⟩ := Builtin.call_alike h hcall
  obtain ⟨v', w'', hv', hrun⟩ := runCall_of_lookup (w := w') guard arguments hb
  obtain ⟨hvalue, rfl⟩ := Prod.mk.inj (hv'.symm.trans hcall')
  obtain rfl := Except.ok.inj hvalue
  exact ⟨_, hafter, by rw [hrun, hafter.output, hafter.futures]⟩

theorem runCall_of_unknown (guard : Guard) (h : Builtin.lookup? name = none) :
    runCall guard name arguments w =
      (⟨hostErrorCode, "", errorReport (unknownBuiltin name)⟩, w) := by
  simp only [runCall, h]

/-- Where settings can be loaded, a run of `call` has the effects of the call in process, prints
what the call prints and then its value, and ends with the status that goes with it; a name that no
builtin has is a host error, and nothing is done. -/
theorem runsCall_of_loads (hrequest : Request.ofTokens tokens = .run path (.call name arguments))
    (hload : Loads path (.start input files) settings) :
    RunsCall name arguments input files (run tokens (.start input files)).1
      (run tokens (.start input files)).2 := by
  have hloaded := alike_loadSettings path (.start input files)
  rw [run, hrequest, perform_call name arguments hload]
  refine ⟨fun s => ?_, fun {b} hb => ?_, fun hb => ?_⟩
  · rw [argumentValue]
    cases Document.ofText? s <;> rfl
  · obtain ⟨v, hcall⟩ := Builtin.call_of_not_waits (not_waits (w := .start input files) b arguments)
    obtain ⟨after, hafter, hrun⟩ := runCall_alike settings.guard hb hloaded hcall
    refine ⟨v, _, hcall, ?_⟩
    rw [hrun]
    exact ⟨hafter.files, hafter.input, rfl, status_iff v⟩
  · rw [runCall_of_unknown _ hb]
    exact ⟨rfl, rfl, hloaded.files, hloaded.input⟩

theorem loads_of_text {file text : String} (htext : files.readText file = .ok text)
    (hsettings : Settings.ofText? text = some settings) :
    Loads (some file) (.start input files) settings := by
  simp only [Loads, loadSettings, Settings.load, Settings.loadFrom, World.start, FileTree.view_readText,
    htext, hsettings]

/-- Settings under which no fault is caught. -/
def propagatingText : String := "[runtime]\nfault_policy = \"propagate\""

/-- A directory with these settings in a file. -/
def propagating : FileTree := ⟨.directory [("c.toml", .file (utf8Bytes propagatingText))], []⟩

theorem loads_propagating (input : List UInt8) :
    Loads (some "c.toml") (.start input propagating) ⟨.propagate, false, "warn"⟩ := by
  have hresolve : propagating.resolve "c.toml" = .ok ["c.toml"] := by decide +kernel
  have hbytes : propagating.readBytes "c.toml" = .ok (utf8Bytes propagatingText) := by
    simp only [FileTree.readBytes, hresolve]
    rfl
  have htext : propagating.readText "c.toml" = .ok propagatingText := by
    simp only [FileTree.readText, hbytes, utf8Text_utf8Bytes]
  exact loads_of_text htext (by decide +kernel)

/-- A document and a text are printed where no fault is caught, and then the value of the call. -/
theorem runsCall_print :
    Request.ofTokens ["--config", "c.toml", "call", "print", "[1]", "b"] =
        .run (some "c.toml") (.call "print" ["[1]", "b"]) ∧
      Loads (some "c.toml") (.start [97, 10, 98] propagating) ⟨.propagate, false, "warn"⟩ ∧
      ["[1]", "b"].map argumentValue = [.list [.int 1], .string "b"] ∧
      RunsCall "print" ["[1]", "b"] [97, 10, 98] propagating
        (run ["--config", "c.toml", "call", "print", "[1]", "b"]
          (.start [97, 10, 98] propagating)).1
        (run ["--config", "c.toml", "call", "print", "[1]", "b"]
          (.start [97, 10, 98] propagating)).2 ∧
      (run ["--config", "c.toml", "call", "print", "[1]", "b"]
        (.start [97, 10, 98] propagating)).1.output = "[1] b\nnull\n" := by
  have hrequest : Request.ofTokens ["--config", "c.toml", "call", "print", "[1]", "b"] =
      .run (some "c.toml") (.call "print" ["[1]", "b"]) :=
    ofTokens_settings (by decide +kernel) (by cbv)
  have hload := loads_propagating [97, 10, 98]
  have harguments : ["[1]", "b"].map argumentValue = [.list [.int 1], .string "b"] := rfl
  have hruns := runsCall_of_loads hrequest hload
  obtain ⟨v, w, hcall, -, -, houtput, -⟩ := hruns.registered (b := ⟨"print", .print⟩) (by rfl)
  rw [harguments] at hcall
  obtain ⟨hv, rfl⟩ := Prod.mk.inj hcall
  obtain rfl := Except.ok.inj hv
  exact ⟨hrequest, hload, harguments, hruns, houtput.trans (by cbv)⟩

/-! ## Two runs of one command -/

end CommandLine

end ScriptValues
