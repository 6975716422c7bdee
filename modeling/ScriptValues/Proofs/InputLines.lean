import ScriptValues.Proofs.Frames

/-!
# Standard input, line by line

The lines of an input are its bytes cut behind every line feed. In any sequence of calls, the
readings take these lines one after the other, whatever is called in between, and whether or not
a line is text. When there is none left they answer null, and by then the lines that were taken make
up the input.

* `Console.lines`: the lines of an input.
* `Session`: calls of builtins, each on the input that the one before left.
* `Turn.Reading`: what one reading takes and answers.
* `Session.readsLines`: the readings of any session take the lines in order.
-/

namespace ScriptValues

namespace Console

/-! ## Lines -/

/-- The bytes cut behind every line feed. -/
def lines : List UInt8 → List (List UInt8)
  | [] => []
  | b :: rest =>
    if b = lineFeed then [b] :: lines rest
    else
      match lines rest with
      | [] => [[b]]
      | line :: more => (b :: line) :: more

/-- What comes up to the next line feed is gone, and the line feed with it; everything is gone if
there is none. -/
def LineTaken (before after : List UInt8) : Prop :=
  (∃ text, lineFeed ∉ text ∧ before = text ++ lineFeed :: after) ∨ lineFeed ∉ before ∧ after = []

variable {bytes : List UInt8}

theorem lineTaken_takeLine (bytes : List UInt8) : LineTaken bytes (takeLine bytes).2 := by
  induction bytes with
  | nil => exact .inr ⟨List.not_mem_nil, rfl⟩
  | cons b rest ih =>
    simp only [takeLine]
    split
    · next hb => exact .inl ⟨[], List.not_mem_nil, by rw [hb]; rfl⟩
    · next hb =>
      rcases ih with ⟨text, htext, hrest⟩ | ⟨hrest, hafter⟩
      · refine .inl ⟨b :: text, ?_, congrArg (b :: ·) hrest⟩
        exact List.not_mem_cons_of_ne_of_not_mem (Ne.symm hb) htext
      · exact .inr ⟨List.not_mem_cons_of_ne_of_not_mem (Ne.symm hb) hrest, hafter⟩

theorem takeLine_eq_nil : (takeLine bytes).1 = [] ↔ bytes = [] := by
  cases bytes with
  | nil => exact iff_of_true rfl rfl
  | cons b rest =>
    simp only [takeLine]
    split <;> simp

/-- The first line is what is taken next, and the others are the lines of what is left. -/
theorem lines_of_ne_nil (h : bytes ≠ []) :
    lines bytes = (takeLine bytes).1 :: lines (takeLine bytes).2 := by
  induction bytes with
  | nil => exact absurd rfl h
  | cons b rest ih =>
    simp only [lines, takeLine]
    split
    · rfl
    · cases rest with
      | nil => rfl
      | cons c more => rw [ih (List.cons_ne_nil _ _)]

theorem lines_eq_nil : lines bytes = [] ↔ bytes = [] := by
  refine ⟨fun h => ?_, fun h => by rw [h, lines]⟩
  by_contra hne
  rw [lines_of_ne_nil hne] at h
  cases h

theorem lines_takeLine (bytes : List UInt8) : lines (takeLine bytes).2 = (lines bytes).tail := by
  by_cases h : bytes = []
  · rw [h, takeLine, lines, List.tail_nil]
  · rw [lines_of_ne_nil h, List.tail_cons]

theorem head_lines (bytes : List UInt8) : (lines bytes).head?.getD [] = (takeLine bytes).1 := by
  by_cases h : bytes = []
  · rw [h]
    rfl
  · rw [lines_of_ne_nil h]
    rfl

end Console

open Console

/-! ## Sessions -/

/-- A builtin under its name, with arguments. -/
structure Call where
  name : String
  builtin : Builtin
  found : Builtin.lookup? name = some builtin
  values : List Value

/-- Whether the call reads a line: it is `ReadLine` without arguments. -/
def Call.readsLine (call : Call) : Bool := call.name = "ReadLine" && call.values.isEmpty

/-- A call that was made: the world before, the answer and the world after. -/
structure Turn where
  call : Call
  before : World
  answer : Except Halt Value
  after : World
  made : call.builtin.tryCall call.values before = (answer, after)

def Call.turn (call : Call) (w : World) : Turn where
  call := call
  before := w
  answer := (call.builtin.tryCall call.values w).1
  after := (call.builtin.tryCall call.values w).2
  made := rfl

namespace Turn

def readsLine (turn : Turn) : Bool := turn.call.readsLine

/-- The bytes that are gone from the front of the input. -/
def consumed (turn : Turn) : List UInt8 :=
  turn.before.input.take (turn.before.input.length - turn.after.input.length)

end Turn

/-- Calls one after the other, each on the input that the one before left. Whatever else is in the
world may change in between. -/
inductive Session : List UInt8 → List Turn → Prop
  | done (input : List UInt8) : Session input []
  | next {turn : Turn} {later : List Turn} :
      Session turn.after.input later → Session turn.before.input (turn :: later)

namespace Session

/-- The turns of some calls if nothing else happens in between. -/
def ofCalls : List Call → World → List Turn
  | [], _ => []
  | call :: rest, w => call.turn w :: ofCalls rest (call.turn w).after

theorem session_ofCalls (calls : List Call) (w : World) : Session w.input (ofCalls calls w) := by
  induction calls generalizing w with
  | nil => exact .done _
  | cons call rest ih =>
    show Session (call.turn w).before.input (call.turn w :: ofCalls rest (call.turn w).after)
    exact .next (ih _)

end Session

namespace Turn

variable {turn : Turn}

theorem consumed_of_append {line : List UInt8}
    (h : turn.before.input = line ++ turn.after.input) : turn.consumed = line := by
  rw [consumed, h, List.length_append, Nat.add_sub_cancel, List.take_left]

/-- What a reading answers for the bytes that it took. -/
def lineAnswer (line : List UInt8) : Result Value :=
  if line.isEmpty then .ok .null
  else
    match utf8Text? line with
    | some s => .ok (.string (lineText s))
    | none =>
      .error (.failure ⟨"ReadLine", .io ("cannot read stdin: " ++ FileError.notUtf8.message)⟩)

theorem readLineStep_run (w : World) :
    Operation.readLineStep ⟨"ReadLine", []⟩ w =
      (lineAnswer (takeLine w.input).1, { w with input := (takeLine w.input).2 }) := by
  simp only [Operation.readLineStep, lineAnswer, Step.bind_run, Step.get_run, Step.set_run]
  cases (takeLine w.input).1.isEmpty with
  | true => rfl
  | false => cases utf8Text? (takeLine w.input).1 <;> rfl

theorem lookup_readLine : Builtin.lookup? "ReadLine" = some ⟨"ReadLine", .readLine⟩ := by
  decide +kernel

/-- A reading takes the next line and answers for it. -/
theorem made_of_readsLine (h : turn.readsLine) :
    turn.answer = lineAnswer (takeLine turn.before.input).1 ∧
      turn.after.input = (takeLine turn.before.input).2 := by
  obtain ⟨⟨name, b, hfound, values⟩, before, answer, after, hmade⟩ := turn
  obtain ⟨hname, hvalues⟩ := Bool.and_eq_true_iff.1 h
  obtain rfl : name = "ReadLine" := of_decide_eq_true hname
  obtain rfl : values = [] := List.isEmpty_iff.1 hvalues
  obtain rfl := Option.some.inj (lookup_readLine.symm.trans hfound)
  have hrun : (answer, after) = _ := hmade.symm.trans (readLineStep_run before)
  obtain ⟨rfl, rfl⟩ := Prod.mk.inj hrun
  exact ⟨rfl, rfl⟩

/-- Nothing else takes anything, not even `ReadLine` with arguments. -/
theorem input_of_not_readsLine (h : ¬ turn.readsLine) : turn.after.input = turn.before.input := by
  obtain ⟨⟨name, b, hfound, values⟩, before, answer, after, hmade⟩ := turn
  by_cases hname : name = "ReadLine"
  · subst hname
    obtain rfl := Option.some.inj (lookup_readLine.symm.trans hfound)
    have hvalues : values ≠ [] := by
      rintro rfl
      exact h rfl
    have hrejected : ¬ (Builtin.arity ⟨"ReadLine", .readLine⟩).accepts values.length := by
      simpa [Builtin.arity, Operation.arity, Arity.accepts] using hvalues
    rw [Builtin.tryCall_of_not_accepts hrejected] at hmade
    obtain ⟨-, rfl⟩ := Prod.mk.inj hmade
    rfl
  · have hframed := Builtin.framed (Builtin.mem_of_lookup hfound) values before
    rw [hmade] at hframed
    exact hframed.input (Builtin.name_of_lookup hfound ▸ hname)

theorem consumed_of_readsLine (h : turn.readsLine) :
    turn.consumed = (takeLine turn.before.input).1 := by
  refine consumed_of_append ?_
  rw [(made_of_readsLine h).2, takeLine_append]

theorem consumed_of_not_readsLine (h : ¬ turn.readsLine) : turn.consumed = [] :=
  consumed_of_append (input_of_not_readsLine h).symm

/-- Nothing that is gone is still there, and nothing else is gone. -/
theorem consumed_append (turn : Turn) :
    turn.consumed ++ turn.after.input = turn.before.input := by
  by_cases h : turn.readsLine
  · rw [consumed_of_readsLine h, (made_of_readsLine h).2, takeLine_append]
  · rw [consumed_of_not_readsLine h, input_of_not_readsLine h, List.nil_append]

/-- One line fewer is left after a reading, and as many as before after every other call. -/
theorem lines_after (turn : Turn) :
    lines turn.after.input =
      (lines turn.before.input).drop (if turn.readsLine then 1 else 0) := by
  by_cases h : turn.readsLine
  · rw [if_pos h, (made_of_readsLine h).2, lines_takeLine, List.drop_one]
  · rw [if_neg h, input_of_not_readsLine h, List.drop_zero]

/-! ## One reading -/

/-- What a reading takes and answers, if this is the line that is left, or there is none. -/
structure Reading (turn : Turn) (line : Option (List UInt8)) : Prop where
  /-- It takes what comes up to the next line feed, with it, or all if there is none. -/
  taken : LineTaken turn.before.input turn.after.input
  consumed : turn.consumed = line.getD []
  /-- It answers null where nothing is left, and nowhere else. -/
  null : turn.answer = .ok .null ↔ turn.before.input = []
  /-- A line that is text gives a text. -/
  text {s : String} : turn.before.input ≠ [] → utf8Text? turn.consumed = some s →
    turn.answer = .ok (.string (lineText s))
  /-- Bytes that are no text give a failure, and are gone all the same. -/
  invalid : utf8Text? turn.consumed = none →
    ∃ message, turn.answer = .error (.failure ⟨"ReadLine", .io message⟩)

theorem lineAnswer_eq_null {line : List UInt8} : lineAnswer line = .ok .null ↔ line = [] := by
  rw [lineAnswer, ← List.isEmpty_iff]
  cases line.isEmpty with
  | true => exact iff_of_true rfl rfl
  | false => cases utf8Text? line <;> simp

theorem reading (h : turn.readsLine) : turn.Reading (lines turn.before.input).head? := by
  obtain ⟨hanswer, hafter⟩ := made_of_readsLine h
  have hconsumed := consumed_of_readsLine h
  refine ⟨hafter ▸ lineTaken_takeLine _, by rw [hconsumed, head_lines], ?_, fun {s} hne hs => ?_,
    fun hs => ?_⟩
  · rw [hanswer, lineAnswer_eq_null, takeLine_eq_nil]
  · have hline : (takeLine turn.before.input).1.isEmpty = false := by
      simpa [takeLine_eq_nil] using hne
    rw [hanswer, lineAnswer, hline, ← hconsumed, hs]
    rfl
  · have hline : (takeLine turn.before.input).1.isEmpty = false := by
      rw [← hconsumed]
      cases hempty : turn.consumed with
      | nil =>
        rw [hempty] at hs
        cases hs.symm.trans (utf8Text_utf8Bytes "")
      | cons b rest => rfl
    rw [hanswer, lineAnswer, hline, ← hconsumed, hs]
    exact ⟨_, rfl⟩

end Turn

/-! ## All readings of a session -/

namespace Session

variable {input : List UInt8} {turns : List Turn}

/-- How many lines were read, the end of the input counted each time. -/
def readings (turns : List Turn) : Nat := turns.countP Turn.readsLine

/-- What is left before a call are the lines that were not read before. -/
theorem lines_before (h : Session input turns) {i : Nat} {turn : Turn}
    (hturn : turns[i]? = some turn) :
    lines turn.before.input = (lines input).drop (readings (turns.take i)) := by
  induction h generalizing i with
  | done input => cases hturn
  | @next first later _ ih =>
    cases i with
    | zero =>
      obtain rfl := Option.some.inj hturn
      rfl
    | succ i =>
      rw [ih hturn, first.lines_after, List.drop_drop, List.take_succ_cons, readings, readings,
        List.countP_cons, Nat.add_comm]

/-- What was taken by the readings before a call, and what is left, make up the input. -/
theorem consumed_before (h : Session input turns) {i : Nat} {turn : Turn}
    (hturn : turns[i]? = some turn) :
    (((turns.take i).filter Turn.readsLine).map Turn.consumed).flatten ++ turn.before.input =
      input := by
  induction h generalizing i with
  | done input => cases hturn
  | @next first later _ ih =>
    cases i with
    | zero =>
      obtain rfl := Option.some.inj hturn
      rfl
    | succ i =>
      rw [List.take_succ_cons, ← first.consumed_append, ← ih hturn]
      by_cases hreads : first.readsLine
      · simp [hreads]
      · simp [hreads, Turn.consumed_of_not_readsLine hreads]

structure ReadsLines (input : List UInt8) (turns : List Turn) : Prop where
  /-- The k-th reading takes the k-th line. -/
  reading {i : Nat} {turn : Turn} : turns[i]? = some turn → turn.readsLine →
    turn.Reading (lines input)[readings (turns.take i)]?
  /-- Any other call takes nothing. -/
  other {turn : Turn} : turn ∈ turns → ¬ turn.readsLine → turn.after.input = turn.before.input
  /-- Once a reading answers null, all later ones do. -/
  forever {i j : Nat} {turn later : Turn} : turns[i]? = some turn → turns[j]? = some later →
    i ≤ j → turn.readsLine → later.readsLine → turn.answer = .ok .null → later.answer = .ok .null
  /-- No byte is lost or taken twice: what the readings took and what is left make up the input. -/
  conserved {i : Nat} {turn : Turn} : turns[i]? = some turn →
    (((turns.take i).filter Turn.readsLine).map Turn.consumed).flatten ++ turn.before.input = input
  /-- When a reading answers null, what was taken before is the whole input. -/
  whole {i : Nat} {turn : Turn} : turns[i]? = some turn → turn.readsLine →
    turn.answer = .ok .null →
      (((turns.take i).filter Turn.readsLine).map Turn.consumed).flatten = input

theorem readings_take_le {i j : Nat} (h : i ≤ j) :
    readings (turns.take i) ≤ readings (turns.take j) :=
  (List.take_sublist_take_left h).countP_le

/-- In any sequence of calls the readings take the lines of the input in order, and nothing else
takes anything. -/
theorem readsLines (h : Session input turns) : ReadsLines input turns := by
  have hreading {i : Nat} {turn : Turn} (hturn : turns[i]? = some turn) (hreads : turn.readsLine) :
      turn.Reading (lines input)[readings (turns.take i)]? := by
    have hhead : (lines input)[readings (turns.take i)]? = (lines turn.before.input).head? := by
      rw [h.lines_before hturn, List.head?_drop]
    rw [hhead]
    exact turn.reading hreads
  refine ⟨hreading, fun _ => Turn.input_of_not_readsLine, ?_, h.consumed_before, ?_⟩
  · intro i j turn later hturn hlater hij hreads hreads' hnull
    have hinput := (hreading hturn hreads).null.1 hnull
    rw [← lines_eq_nil, h.lines_before hturn, List.drop_eq_nil_iff] at hinput
    refine (hreading hlater hreads').null.2 ?_
    rw [← lines_eq_nil, h.lines_before hlater, List.drop_eq_nil_iff]
    exact hinput.trans (readings_take_le hij)
  · intro i turn hturn hreads hnull
    have hinput := (hreading hturn hreads).null.1 hnull
    have hwhole := h.consumed_before hturn
    rwa [hinput, List.append_nil] at hwhole

/-- The first line is no text, one `ReadLine` has an argument too many, and the last line has no
line feed. -/
theorem readsLines_invalidLine :
    let read (values : List Value) : Call :=
      ⟨"ReadLine", ⟨"ReadLine", .readLine⟩, Turn.lookup_readLine, values⟩
    let calls := [read [], read [.null], read [], read []]
    let turns := ofCalls calls { World.bare with input := [255, 10, 97] }
    Session [255, 10, 97] turns ∧ lines [255, 10, 97] = [[255, 10], [97]] ∧
      ReadsLines [255, 10, 97] turns := by
  intro read calls turns
  have hsession : Session [255, 10, 97] turns :=
    session_ofCalls calls { World.bare with input := [255, 10, 97] }
  exact ⟨hsession, by decide, readsLines hsession⟩

end Session

end ScriptValues
