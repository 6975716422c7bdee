import Mathlib
import ScriptValues.Settings

/-!
# What a document chooses

Of a document only three items matter, each under a key of its own in one of two tables. A setting
is what its item says, or the standard one where there is no item; the settings are refused where
one of the items cannot be read. The three are chosen independently, and whatever else the document
holds is passed over.

* `Settings.ofEntries?_eq`: the three items are all that is read.
* `Settings.decodingLaws`: every document of which the two tables, where they are there, are tables.
* `Settings.keyedPolicy_decoded`: a policy need not be written as a text.
-/

namespace ScriptValues

namespace Toml

/-! ## What an item says -/

mutual

/-- An item without how its tables were written. -/
def Item.plain : Item → Item
  | .array items => .array (plainItems items)
  | .table _ entries => .table .header (plainEntries entries)
  | .tables elements => .array (plainElements elements)
  | item => item

/-- The elements of an array without how their tables were written. -/
def plainItems : List Item → List Item
  | [] => []
  | item :: rest => item.plain :: plainItems rest

/-- The entries of a table without how tables in them were written. -/
def plainEntries : List (String × Item) → List (String × Item)
  | [] => []
  | (key, item) :: rest => (key, item.plain) :: plainEntries rest

/-- The elements of an array of tables, as elements of an array. -/
def plainElements : List (List (String × Item)) → List Item
  | [] => []
  | entries :: rest => .table .header (plainEntries entries) :: plainElements rest

end

end Toml

namespace Settings

open Toml (Item)

variable {α : Type} {entries other : Entries Item} {item content : Item}

/-! ## How settings are written -/

/-- A table or an array without anything in it. -/
inductive HasNothing : Item → Prop where
  | table (origin : Toml.Origin) : HasNothing (.table origin [])
  | array : HasNothing (.array [])
  | tables : HasNothing (.tables [])

/-- A policy is written as its name, or as a table with its name as the only key and nothing under
it. -/
inductive WritesPolicy : Item → FaultPolicy → Prop where
  | name (policy : FaultPolicy) : WritesPolicy (.text policy.name) policy
  | key (policy : FaultPolicy) (origin : Toml.Origin) {content : Item} :
      HasNothing content → WritesPolicy (.table origin [(policy.name, content)]) policy

/-- A setting that a document may choose: where its item stands, how a choice is written, and what
holds where there is no item. -/
structure Choice (α : Type) where
  table : String
  key : String
  Writes : Item → α → Prop
  standard : α

def policyChoice : Choice FaultPolicy := ⟨"runtime", "fault_policy", WritesPolicy, .log⟩

/-- The choice of backtraces: a truth value. -/
def backtraceChoice : Choice Bool :=
  ⟨"runtime", "capture_backtrace", fun item b => item = .boolean b, false⟩

/-- The choice of a level: any text. -/
def levelChoice : Choice String := ⟨"log", "level", fun item s => item = .text s, "warn"⟩

/-- The item under a key of a table. -/
def itemAt? (table key : String) (entries : Entries Item) : Option Item :=
  match Entries.lookup? table entries with
  | some (.table _ inner) => Entries.lookup? key inner
  | _ => none

namespace Choice

variable (c : Choice α)

/-- The item of a setting. -/
def given? (entries : Entries Item) : Option Item := itemAt? c.table c.key entries

/-- A setting is what its item writes, or the standard one. -/
def Holds (entries : Entries Item) (a : α) : Prop :=
  match c.given? entries with
  | none => a = c.standard
  | some item => c.Writes item a

/-- The item of a setting is there and writes no choice. -/
def IllFormed (entries : Entries Item) : Prop :=
  ∃ item, c.given? entries = some item ∧ ∀ a, ¬ c.Writes item a

/-- Two documents say the same about a setting, or both nothing. -/
def Agree (entries other : Entries Item) : Prop :=
  (c.given? entries).map Item.plain = (c.given? other).map Item.plain

/-- Reading the item of a setting finds what is written, and goes by what the item says. -/
structure ReadBy (read? : Item → Option α) : Prop where
  writes : ∀ item a, read? item = some a ↔ c.Writes item a
  plain : ∀ item, read? item.plain = read? item

variable {c} {read? : Item → Option α} {a : α}

theorem ReadBy.chosen?_eq_some_iff (h : c.ReadBy read?) :
    chosen? read? c.standard (c.given? entries) = some a ↔ c.Holds entries a := by
  unfold Holds
  cases c.given? entries with
  | none => simp only [chosen?, Option.some.injEq, eq_comm]
  | some item => exact h.writes item a

theorem ReadBy.chosen?_eq_none_iff (h : c.ReadBy read?) :
    chosen? read? c.standard (c.given? entries) = none ↔ c.IllFormed entries := by
  unfold IllFormed
  cases c.given? entries with
  | none => simp [chosen?]
  | some item => simp [chosen?, Option.eq_none_iff_forall_ne_some, h.writes]

theorem ReadBy.chosen?_plain (h : c.ReadBy read?) (item? : Option Item) :
    chosen? read? c.standard (item?.map Item.plain) = chosen? read? c.standard item? := by
  cases item? with
  | none => rfl
  | some item => exact h.plain item

theorem ReadBy.chosen?_congr (h : c.ReadBy read?) (hagree : c.Agree entries other) :
    chosen? read? c.standard (c.given? other) = chosen? read? c.standard (c.given? entries) := by
  rw [← h.chosen?_plain, ← h.chosen?_plain (c.given? entries)]
  exact congrArg _ hagree.symm

end Choice

/-! ## Reading one item -/

theorem isEmptyItem_iff : isEmptyItem content ↔ HasNothing content := by
  constructor
  · intro h
    cases content with
    | array items =>
      obtain rfl := List.isEmpty_iff.1 h
      exact .array
    | table origin entries =>
      obtain rfl := List.isEmpty_iff.1 h
      exact .table origin
    | tables elements =>
      obtain rfl := List.isEmpty_iff.1 h
      exact .tables
    | _ => cases h
  · intro h
    cases h <;> rfl

theorem isEmptyItem_plain (content : Item) : isEmptyItem content.plain = isEmptyItem content := by
  cases content with
  | array items => cases items <;> rfl
  | table origin entries => cases entries <;> rfl
  | tables elements => cases elements <;> rfl
  | _ => rfl

theorem ofName?_eq_some_iff {name : String} {policy : FaultPolicy} :
    FaultPolicy.ofName? name = some policy ↔ name = policy.name := by
  constructor
  · intro h
    have hname := List.find?_some h
    exact (of_decide_eq_true hname).symm
  · rintro rfl
    exact FaultPolicy.ofName_name policy

theorem policyOf?_key_eq_some_iff {origin : Toml.Origin} {name : String} {policy : FaultPolicy} :
    policyOf? (.table origin [(name, content)]) = some policy ↔
      HasNothing content ∧ name = policy.name := by
  show (if isEmptyItem content then FaultPolicy.ofName? name else none) = some policy ↔ _
  rw [Option.ite_none_right_eq_some, isEmptyItem_iff, ofName?_eq_some_iff]

theorem policyOf?_eq_some_iff (item : Item) (policy : FaultPolicy) :
    policyOf? item = some policy ↔ WritesPolicy item policy := by
  constructor
  · intro h
    cases item with
    | text name =>
      obtain rfl := ofName?_eq_some_iff.1 h
      exact .name policy
    | table origin entries =>
      -- a table with no key, or with more than one, names no policy
      match entries with
      | [(name, content)] =>
        obtain ⟨hnothing, rfl⟩ := policyOf?_key_eq_some_iff.1 h
        exact .key policy origin hnothing
      | [] | _ :: _ :: _ => cases h
    | _ => cases h
  · intro h
    cases h with
    | name => exact FaultPolicy.ofName_name policy
    | key _ origin hnothing => exact policyOf?_key_eq_some_iff.2 ⟨hnothing, rfl⟩

theorem policyOf?_plain (item : Item) : policyOf? item.plain = policyOf? item := by
  cases item with
  | table origin entries =>
    match entries with
    | [(name, content)] =>
      show (if isEmptyItem content.plain then FaultPolicy.ofName? name else none) = _
      rw [isEmptyItem_plain]
      rfl
    | [] | _ :: _ :: _ => rfl
  | _ => rfl

theorem readBy_policyOf? : policyChoice.ReadBy policyOf? :=
  ⟨policyOf?_eq_some_iff, policyOf?_plain⟩

theorem readBy_flagOf? : backtraceChoice.ReadBy flagOf? := by
  constructor
  · intro item b
    cases item <;> simp [flagOf?, backtraceChoice]
  · intro item
    cases item <;> rfl

theorem readBy_textOf? : levelChoice.ReadBy textOf? := by
  constructor
  · intro item s
    cases item <;> simp [textOf?, levelChoice]
  · intro item
    cases item <;> rfl

/-! ## Reading a document -/

/-- What stands under a key of a document is a table, if something stands there. -/
def TableOrAbsent (table : String) (entries : Entries Item) : Prop :=
  ∀ item, Entries.lookup? table entries = some item → ∃ origin inner, item = .table origin inner

/-- The tables with the settings are tables, as far as they are there. -/
structure Tabled (entries : Entries Item) : Prop where
  runtime : TableOrAbsent "runtime" entries
  log : TableOrAbsent "log" entries

/-- A document that holds one of the tables and nothing else. -/
theorem tabled_runtime (origin : Toml.Origin) (inner : Entries Item) :
    Tabled [("runtime", .table origin inner)] := by
  constructor
  · rintro item ⟨⟩
    exact ⟨origin, inner, rfl⟩
  · rintro item ⟨⟩

/-- A section that is a table is read by the keys alone. -/
theorem sectionOf?_eq {table : String} (h : TableOrAbsent table entries) :
    sectionOf? (Entries.lookup? table entries) = some fun key _ => itemAt? table key entries := by
  unfold itemAt?
  cases hitem : Entries.lookup? table entries with
  | none => rfl
  | some item =>
    obtain ⟨origin, inner, rfl⟩ := h item hitem
    rfl

/-- The settings of three choices, if each of them could be read. -/
def combine (policy? : Option FaultPolicy) (backtrace? : Option Bool) (level? : Option String) :
    Option Settings := do
  return ⟨← policy?, ← backtrace?, ← level?⟩

/-- Three items are all that is read of a document. -/
theorem ofEntries?_eq (h : Tabled entries) : ofEntries? entries = combine
    (chosen? policyOf? policyChoice.standard (policyChoice.given? entries))
    (chosen? flagOf? backtraceChoice.standard (backtraceChoice.given? entries))
    (chosen? textOf? levelChoice.standard (levelChoice.given? entries)) := by
  unfold ofEntries?
  rw [sectionOf?_eq h.runtime, sectionOf?_eq h.log]
  rfl

theorem combine_eq_some_iff {policy? : Option FaultPolicy} {backtrace? : Option Bool}
    {level? : Option String} {s : Settings} :
    combine policy? backtrace? level? = some s ↔
      policy? = some s.policy ∧ backtrace? = some s.backtrace ∧ level? = some s.level := by
  obtain ⟨policy, backtrace, level⟩ := s
  cases policy? <;> cases backtrace? <;> cases level? <;> simp [combine]

theorem combine_eq_none_iff {policy? : Option FaultPolicy} {backtrace? : Option Bool}
    {level? : Option String} :
    combine policy? backtrace? level? = none ↔
      policy? = none ∨ backtrace? = none ∨ level? = none := by
  cases policy? <;> cases backtrace? <;> cases level? <;> simp [combine]

/-- What the settings in a document come to. -/
structure DecodingLaws (entries : Entries Item) : Prop where
  /-- The text of a document is read as the document is. -/
  read : ∀ text, Toml.ofText? text = some entries → ofText? text = ofEntries? entries
  /-- Each setting is what its item writes, or the standard one, whatever holds of the others. -/
  decoded : ∀ s, ofEntries? entries = some s ↔
    policyChoice.Holds entries s.policy ∧ backtraceChoice.Holds entries s.backtrace ∧
    levelChoice.Holds entries s.level
  /-- One ill-formed item is enough for a refusal, and nothing else is refused. -/
  refused : ofEntries? entries = none ↔
    policyChoice.IllFormed entries ∨ backtraceChoice.IllFormed entries ∨
    levelChoice.IllFormed entries
  /-- Documents that say the same about the three settings are read alike. -/
  alike : ∀ other, Tabled other → policyChoice.Agree entries other →
    backtraceChoice.Agree entries other → levelChoice.Agree entries other →
    ofEntries? other = ofEntries? entries
  /-- The guard has the policy and the flag that were read, and these are what the document chose. -/
  guarded : ∀ s, ofEntries? entries = some s → s.guard = ⟨s.policy, s.backtrace⟩ ∧
    policyChoice.Holds entries s.guard.policy ∧ backtraceChoice.Holds entries s.guard.backtrace

/-- A document is read for three settings, each by itself, and for nothing else. -/
theorem decodingLaws (h : Tabled entries) : DecodingLaws entries := by
  have hentries := ofEntries?_eq h
  have hdecoded (s : Settings) : ofEntries? entries = some s ↔
      policyChoice.Holds entries s.policy ∧ backtraceChoice.Holds entries s.backtrace ∧
      levelChoice.Holds entries s.level := by
    rw [hentries, combine_eq_some_iff, readBy_policyOf?.chosen?_eq_some_iff,
      readBy_flagOf?.chosen?_eq_some_iff, readBy_textOf?.chosen?_eq_some_iff]
  constructor
  · intro text htext
    rw [ofText?, htext, Option.bind_some]
  · exact hdecoded
  · rw [hentries, combine_eq_none_iff, readBy_policyOf?.chosen?_eq_none_iff,
      readBy_flagOf?.chosen?_eq_none_iff, readBy_textOf?.chosen?_eq_none_iff]
  · intro other hother hpolicy hbacktrace hlevel
    rw [hentries, ofEntries?_eq hother, readBy_policyOf?.chosen?_congr hpolicy,
      readBy_flagOf?.chosen?_congr hbacktrace, readBy_textOf?.chosen?_congr hlevel]
  · intro s hs
    obtain ⟨hpolicy, hbacktrace, -⟩ := (hdecoded s).1 hs
    exact ⟨rfl, hpolicy, hbacktrace⟩

/-- Unknown keys and tables make no difference to what is chosen and what is left open. -/
example : ofText? "[runtime]\nlevel = 1\ncapture_backtrace = true\n[log.runtime]\nlevel = 2" =
    some ⟨.log, true, "warn"⟩ := by
  decide +kernel

/-- A known key of a known table, which stands inside the other table. -/
def misplacedText : String := "[runtime.log]\nlevel = \"off\""

def misplaced : Entries Item :=
  [("runtime", .table .implied [("log", .table .header [("level", .text "off")])])]

theorem decodingLaws_misplaced : Toml.ofText? misplacedText = some misplaced ∧
    ofEntries? misplaced = some standard ∧ Tabled misplaced ∧ DecodingLaws misplaced := by
  have htext : Toml.ofText? misplacedText = some misplaced := by cbv
  have htabled : Tabled misplaced := tabled_runtime _ _
  exact ⟨htext, rfl, htabled, decodingLaws htabled⟩

/-- A policy is written by a key. -/
def keyedPolicyText : String := "[runtime]\nfault_policy = \x7b catch = \x7b\x7d \x7d"

def keyedPolicy : Entries Item := [("runtime", .table .header
  [("fault_policy", .table .inlined [("catch", .table .inlined [])])])]

/-- The choice of a policy if it could be written only as a text. -/
def policyTextChoice : Choice FaultPolicy :=
  { policyChoice with Writes := fun item policy => item = .text policy.name }

/-- A policy may be chosen by a key, which no text is. A document that does so is read, so it is not
the texts alone that are accepted. -/
theorem keyedPolicy_decoded : Toml.ofText? keyedPolicyText = some keyedPolicy ∧
    Tabled keyedPolicy ∧ policyTextChoice.IllFormed keyedPolicy ∧
    ofText? keyedPolicyText = some ⟨.catchSilently, false, "warn"⟩ ∧
    ¬ (ofEntries? keyedPolicy = none ↔
      policyTextChoice.IllFormed keyedPolicy ∨ backtraceChoice.IllFormed keyedPolicy ∨
      levelChoice.IllFormed keyedPolicy) := by
  have htext : Toml.ofText? keyedPolicyText = some keyedPolicy := by cbv
  have hill : policyTextChoice.IllFormed keyedPolicy := by
    refine ⟨_, rfl, fun policy h => ?_⟩
    cases h
  have hread : ofEntries? keyedPolicy = some ⟨.catchSilently, false, "warn"⟩ := by rfl
  refine ⟨htext, tabled_runtime _ _, hill, ?_, ?_⟩
  · rw [ofText?, htext, Option.bind_some, hread]
  · intro hiff
    -- by the equivalence the document would be refused
    have hnone := hiff.2 (.inl hill)
    rw [hread] at hnone
    cases hnone

end Settings

end ScriptValues
