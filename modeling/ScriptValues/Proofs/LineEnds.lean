import Mathlib.Data.List.DropRight
import ScriptValues.Proofs.ByteOrder
import ScriptValues.Proofs.InputLines

/-!
# What a reading drops

A reading gives the text of its line without the line feed and without every carriage return before
it. So it drops one line terminator and nothing else as long as the line's own text does not end in
a carriage return, and loses a part of that text if it does.

* `Console.exists_body`: the characters of a line that was taken.
* `Turn.Kept`: only a line terminator is dropped.
* `Turn.lineEndLaws`: what is dropped, and exactly when it is only a line terminator.
-/

namespace ScriptValues

/-! ## Characters of one byte -/

section

variable {b : UInt8} {c : Char} {s : String}

/-- A byte below 128 stands for the character of that code and for no other. -/
theorem mem_utf8EncodeChar (hb : b.toNat < 128) :
    b ∈ String.utf8EncodeChar c ↔ c.toNat = b.toNat := by
  have hmax := toNat_val_lt c
  show _ ↔ c.val.toNat = b.toNat
  unfold String.utf8EncodeChar
  generalize c.val.toNat = n at hmax ⊢
  simp only
  split_ifs <;>
    simp only [List.mem_cons, List.not_mem_nil, or_false, ← UInt8.toNat_inj, UInt8.toNat_ofNat'] <;>
    omega

theorem utf8Bytes_of_utf8Text {bytes : List UInt8} (h : utf8Text? bytes = some s) :
    utf8Bytes s = bytes := by
  unfold utf8Text? String.fromUTF8? at h
  split at h
  · obtain rfl := Option.some.inj h
    rfl
  · cases h

theorem utf8Bytes_ofList (cs : List Char) :
    utf8Bytes (.ofList cs) = cs.flatMap String.utf8EncodeChar := by
  rw [utf8Bytes_eq_flatMap, String.toList_ofList]

end

namespace Console

/-- The byte before a line feed that belongs to the line terminator. -/
def carriageReturn : UInt8 := 13

variable {cs : List Char} {bytes text : List UInt8}

theorem lineFeed_mem_iff : lineFeed ∈ cs.flatMap String.utf8EncodeChar ↔ '\n' ∈ cs := by
  have hchar (c : Char) : c.toNat = lineFeed.toNat ↔ c = '\n' := Char.toNat_inj (d := '\n')
  simp [mem_utf8EncodeChar (show lineFeed.toNat < 128 by decide), hchar]

/-- Characters whose last byte is below 128 end in the character of that code. -/
theorem exists_concat {b : UInt8} (hb : b.toNat < 128)
    (h : cs.flatMap String.utf8EncodeChar = text ++ [b]) :
    ∃ before c, cs = before ++ [c] ∧ c.toNat = b.toNat := by
  rcases List.eq_nil_or_concat' cs with rfl | ⟨before, c, rfl⟩
  · cases (List.nil_eq_append_iff.1 h).2
  · refine ⟨before, c, rfl, (mem_utf8EncodeChar hb).1 ?_⟩
    have hlast := congrArg List.getLast? h
    rw [List.flatMap_append, List.flatMap_singleton, List.getLast?_concat,
      List.getLast?_append_of_ne_nil _ String.utf8EncodeChar_ne_nil] at hlast
    exact List.mem_of_getLast? hlast

/-! ## The characters of a line -/

/-- A line ends in its only line feed, or has none. -/
theorem takeLine_cases (bytes : List UInt8) :
    (∃ text, lineFeed ∉ text ∧ (takeLine bytes).1 = text ++ [lineFeed]) ∨
      lineFeed ∉ (takeLine bytes).1 := by
  have hsplit := takeLine_append bytes
  rcases lineTaken_takeLine bytes with ⟨text, htext, hbytes⟩ | ⟨hbytes, hafter⟩
  · have hline : (takeLine bytes).1 ++ (takeLine bytes).2 =
        text ++ [lineFeed] ++ (takeLine bytes).2 := by
      rw [hsplit, List.append_assoc]
      exact hbytes
    exact .inl ⟨text, htext, List.append_cancel_right hline⟩
  · rw [hafter, List.append_nil] at hsplit
    rw [hsplit]
    exact .inr hbytes

/-- Without line feeds, what is dropped from the end are carriage returns. -/
theorem exists_returns (h : '\n' ∉ cs) :
    ∃ k, cs = dropWhileEnd isLineEnd cs ++ List.replicate k '\r' := by
  refine ⟨(cs.rtakeWhile isLineEnd).length, ?_⟩
  have hreturns : cs.rtakeWhile isLineEnd =
      List.replicate (cs.rtakeWhile isLineEnd).length '\r' := by
    rw [List.eq_replicate_iff]
    refine ⟨rfl, fun c hc => ?_⟩
    have hend : c = '\n' ∨ c = '\r' := by simpa [isLineEnd] using List.mem_rtakeWhile_imp hc
    have hmem : c ∈ cs := (List.rtakeWhile_suffix isLineEnd cs).subset hc
    rcases hend with rfl | rfl
    · exact absurd hmem h
    · rfl
  rw [← hreturns]
  exact List.rdropWhile_append_rtakeWhile.symm

/-- What is left does not end in a carriage return. -/
theorem getLast_dropWhileEnd (cs : List Char) :
    (dropWhileEnd isLineEnd cs).getLast? ≠ some '\r' := by
  by_cases hne : dropWhileEnd isLineEnd cs = []
  · simp [hne]
  · have hkept : ¬ isLineEnd ((dropWhileEnd isLineEnd cs).getLast hne) :=
      List.rdropWhile_last_not isLineEnd cs hne
    rw [List.getLast?_eq_some_getLast hne]
    exact fun hreturn => hkept (by rw [Option.some.inj hreturn]; rfl)

/-- The characters of a line are its body, without line feeds, and the line feed behind it. -/
theorem exists_body {line : List UInt8} {s : String} (hs : utf8Text? line = some s)
    (hline : (∃ text, lineFeed ∉ text ∧ line = text ++ [lineFeed]) ∨ lineFeed ∉ line) :
    ∃ body, '\n' ∉ body ∧ lineText s = .ofList (dropWhileEnd isLineEnd body) ∧
      line = body.flatMap String.utf8EncodeChar ++ if lineFeed ∈ line then [lineFeed] else [] := by
  have hchars : s.toList.flatMap String.utf8EncodeChar = line := by
    rw [← utf8Bytes_eq_flatMap, utf8Bytes_of_utf8Text hs]
  rcases hline with ⟨text, htext, rfl⟩ | hnone
  · obtain ⟨body, c, hbody, hc⟩ := exists_concat (by decide) hchars
    obtain rfl : c = '\n' := Char.toNat_inj.1 hc
    have hencoded : body.flatMap String.utf8EncodeChar = text := by
      rw [hbody, List.flatMap_append] at hchars
      exact List.append_cancel_right hchars
    refine ⟨body, ?_, ?_, ?_⟩
    · rwa [← lineFeed_mem_iff, hencoded]
    · rw [lineText, hbody]
      exact congrArg String.ofList (List.rdropWhile_concat_pos isLineEnd body '\n' rfl)
    · simp [hencoded]
  · refine ⟨s.toList, ?_, rfl, ?_⟩
    · rwa [← lineFeed_mem_iff, hchars]
    · rw [hchars, if_neg hnone, List.append_nil]

end Console

open Console

/-! ## Readings -/

namespace Turn

variable {turn : Turn} {t : String}

/-- The reading drops a line terminator and nothing else: what it took is the text and one
terminator, or the text alone if the input ended without a line feed. -/
def Kept (turn : Turn) (t : String) : Prop :=
  turn.consumed = utf8Bytes t ++ [lineFeed] ∨
    turn.consumed = utf8Bytes t ++ [carriageReturn, lineFeed] ∨
    turn.consumed = utf8Bytes t ∧ lineFeed ∉ turn.consumed

structure LineEndLaws (turn : Turn) (t : String) : Prop where
  /-- It drops carriage returns, as many as there are, and the line feed behind them. -/
  dropped : ∃ k, turn.consumed = utf8Bytes t ++ List.replicate k carriageReturn ++
    if lineFeed ∈ turn.consumed then [lineFeed] else []
  /-- None of these is left in the text. -/
  bare : t.toList.getLast? ≠ some '\r' ∧ '\n' ∉ t.toList
  /-- So it drops more than a line terminator exactly if the line itself ends in a carriage
  return. -/
  kept_iff : turn.Kept t ↔ ¬ [carriageReturn, carriageReturn, lineFeed] <:+ turn.consumed ∧
    ¬ [carriageReturn] <:+ turn.consumed

section

variable {bytes : List UInt8} {k : Nat}

theorem not_return_suffix {cs : List Char} (h : cs.getLast? ≠ some '\r') :
    ¬ [carriageReturn] <:+ utf8Bytes (.ofList cs) := by
  rintro ⟨text, htext⟩
  rw [utf8Bytes_ofList] at htext
  obtain ⟨before, c, rfl, hc⟩ := exists_concat (by decide) htext.symm
  obtain rfl : c = '\r' := Char.toNat_inj.1 hc
  exact h List.getLast?_concat

theorem concat_suffix_concat (front : List UInt8) {x y : UInt8} :
    front ++ [x] <:+ bytes ++ [y] ↔ front <:+ bytes ∧ x = y := by
  constructor
  · rintro ⟨before, h⟩
    rw [← List.append_assoc] at h
    obtain ⟨hfront, hlast⟩ := List.append_inj' h rfl
    exact ⟨⟨before, hfront⟩, List.singleton_inj.1 hlast⟩
  · rintro ⟨⟨before, rfl⟩, rfl⟩
    exact ⟨before, by simp⟩

/-- Behind bytes that do not end in a carriage return, there are two exactly if two were put. -/
theorem returns_feed_suffix_iff (h : ¬ [carriageReturn] <:+ bytes) :
    [carriageReturn, carriageReturn, lineFeed] <:+
      bytes ++ List.replicate k carriageReturn ++ [lineFeed] ↔ 2 ≤ k := by
  refine (concat_suffix_concat [carriageReturn, carriageReturn]).trans ?_
  rw [and_iff_left rfl]
  rcases k with _ | _ | k
  · rw [List.replicate_zero, List.append_nil]
    refine iff_of_false (fun htwo => h ?_) (by omega)
    exact (List.suffix_cons carriageReturn [carriageReturn]).trans htwo
  · refine iff_of_false (fun htwo => h ?_) (by omega)
    exact ((concat_suffix_concat [carriageReturn]).1 htwo).1
  · refine iff_of_true ⟨bytes ++ List.replicate k carriageReturn, ?_⟩ (by omega)
    rw [List.replicate_add k 2, ← List.append_assoc]
    rfl

theorem return_suffix_iff (h : ¬ [carriageReturn] <:+ bytes) :
    [carriageReturn] <:+ bytes ++ List.replicate k carriageReturn ↔ 1 ≤ k := by
  cases k with
  | zero => simpa using h
  | succ k =>
    refine iff_of_true ⟨bytes ++ List.replicate k carriageReturn, ?_⟩ (by omega)
    rw [List.replicate_succ', ← List.append_assoc]

end

/-- With a line feed, at most one carriage return may be dropped. -/
theorem kept_iff_of_feed {k : Nat} (h : turn.consumed =
    utf8Bytes t ++ List.replicate k carriageReturn ++ [lineFeed]) : turn.Kept t ↔ k ≤ 1 := by
  unfold Kept
  rw [h]
  constructor
  · rintro (hnone | hone | ⟨-, hfeed⟩)
    · have hlength := congrArg List.length hnone
      simp at hlength
      omega
    · have hlength := congrArg List.length hone
      simp at hlength
      omega
    · simp at hfeed
  · intro hk
    rcases k with _ | _ | k
    · exact .inl (by simp)
    · exact .inr (.inl (by simp))
    · omega

/-- Without one, none may. -/
theorem kept_iff_of_no_feed {k : Nat} (hfeed : lineFeed ∉ turn.consumed) (h : turn.consumed =
    utf8Bytes t ++ List.replicate k carriageReturn) : turn.Kept t ↔ k = 0 := by
  constructor
  · rintro (hfeed' | hfeed' | ⟨hnone, -⟩)
    · rw [hfeed'] at hfeed
      simp at hfeed
    · rw [hfeed'] at hfeed
      simp at hfeed
    · have hlength := congrArg List.length (h.symm.trans hnone)
      simpa using hlength
  · rintro rfl
    exact .inr (.inr ⟨by simpa using h, hfeed⟩)

/-- The text is the body of the line without the carriage returns at its end. -/
theorem exists_text (h : turn.readsLine) (ht : turn.answer = .ok (.string t)) :
    ∃ body, '\n' ∉ body ∧ t = .ofList (dropWhileEnd isLineEnd body) ∧ turn.consumed =
      body.flatMap String.utf8EncodeChar ++ if lineFeed ∈ turn.consumed then [lineFeed] else [] := by
  obtain ⟨hanswer, -⟩ := made_of_readsLine h
  rw [ht, lineAnswer] at hanswer
  rw [consumed_of_readsLine h]
  split at hanswer
  · cases hanswer
  · split at hanswer
    · next s hs =>
      obtain ⟨body, hbody, hs', hline⟩ := exists_body hs (takeLine_cases _)
      injection hanswer with hanswer
      injection hanswer with hanswer
      exact ⟨body, hbody, hanswer.trans hs', hline⟩
    · cases hanswer

theorem lineEndLaws (h : turn.readsLine) (ht : turn.answer = .ok (.string t)) :
    turn.LineEndLaws t := by
  obtain ⟨body, hbody, rfl, hconsumed⟩ := exists_text h ht
  obtain ⟨k, hk⟩ := exists_returns hbody
  have hbytes : body.flatMap String.utf8EncodeChar =
      utf8Bytes (.ofList (dropWhileEnd isLineEnd body)) ++ List.replicate k carriageReturn := by
    have hreturn : String.utf8EncodeChar '\r' = [carriageReturn] := by decide
    conv_lhs => rw [hk]
    simp [utf8Bytes_ofList, List.flatMap_replicate, hreturn]
  have hlast := getLast_dropWhileEnd body
  have hbare := not_return_suffix hlast
  rw [hbytes] at hconsumed
  refine ⟨⟨k, hconsumed⟩, ⟨by simpa using hlast, ?_⟩, ?_⟩
  · have hfront : dropWhileEnd isLineEnd body <+: body := List.rdropWhile_prefix isLineEnd body
    simpa using fun hmem => hbody (hfront.subset hmem)
  · by_cases hfeed : lineFeed ∈ turn.consumed
    · rw [if_pos hfeed] at hconsumed
      have hreturn : ¬ [carriageReturn] <:+ turn.consumed := by
        rw [hconsumed]
        exact fun hends => absurd ((concat_suffix_concat []).1 hends).2 (by decide)
      rw [kept_iff_of_feed hconsumed, and_iff_left hreturn, hconsumed,
        returns_feed_suffix_iff hbare, not_le, Nat.lt_succ_iff]
    · rw [if_neg hfeed, List.append_nil] at hconsumed
      have hnone : ¬ [carriageReturn, carriageReturn, lineFeed] <:+ turn.consumed :=
        fun hsuffix => hfeed (hsuffix.subset (by simp))
      rw [kept_iff_of_no_feed hfeed hconsumed, and_iff_right hnone, hconsumed,
        return_suffix_iff hbare, not_le, Nat.lt_one_iff]

def ofInput (input : List UInt8) : Turn :=
  Call.turn ⟨"ReadLine", ⟨"ReadLine", .readLine⟩, lookup_readLine, []⟩
    { World.bare with input := input }

theorem readsLine_ofInput (input : List UInt8) : (ofInput input).readsLine := rfl

theorem answer_ofInput (s : String) (hline : takeLine (utf8Bytes s) = (utf8Bytes s, []))
    (hne : utf8Bytes s ≠ []) : (ofInput (utf8Bytes s)).answer = .ok (.string (lineText s)) := by
  rw [(made_of_readsLine (readsLine_ofInput _)).1]
  show lineAnswer (takeLine (utf8Bytes s)).1 = _
  rw [hline, lineAnswer, if_neg (by simpa using hne), utf8Text_utf8Bytes]

/-- A line with a terminator of two bytes. -/
theorem lineEndLaws_returnFeed :
    (ofInput [97, 13, 10]).readsLine ∧ (ofInput [97, 13, 10]).answer = .ok (.string "a") ∧
      (ofInput [97, 13, 10]).LineEndLaws "a" := by
  have hanswer : (ofInput [97, 13, 10]).answer = .ok (.string "a") :=
    answer_ofInput "a\r\n" (by decide) (by decide)
  exact ⟨readsLine_ofInput _, hanswer, lineEndLaws (readsLine_ofInput _) hanswer⟩

/-- The line itself ends in a carriage return, which is lost. -/
theorem last_return_lost :
    (ofInput [97, 13, 13, 10]).readsLine ∧
      (ofInput [97, 13, 13, 10]).answer = .ok (.string "a") ∧
      ¬ (ofInput [97, 13, 13, 10]).Kept "a" := by
  have hanswer : (ofInput [97, 13, 13, 10]).answer = .ok (.string "a") :=
    answer_ofInput "a\r\r\n" (by decide) (by decide)
  have hconsumed : (ofInput [97, 13, 13, 10]).consumed = [97, 13, 13, 10] :=
    consumed_of_readsLine (readsLine_ofInput _)
  refine ⟨readsLine_ofInput _, hanswer, ?_⟩
  unfold Kept
  rw [hconsumed]
  decide

end Turn

end ScriptValues
