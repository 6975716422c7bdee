import ScriptValues.Guard
import ScriptValues.Toml.Reader

/-!
# Settings

What a settings file may choose: the fault policy, whether faults come with a backtrace, and the
level of logging. Everything else in the file is passed over. A section is read from a table by its
keys, or from an array by position; a date in its place has none of the keys.
-/

namespace ScriptValues

structure Settings where
  policy : FaultPolicy
  backtrace : Bool
  level : String
  deriving DecidableEq, Repr

namespace Settings

/-- The settings where a file chooses nothing. -/
def standard : Settings := ⟨.standard, false, "warn"⟩

def guard (s : Settings) : Guard := ⟨s.policy, s.backtrace⟩

/-- The settings that a section chooses, as far as it does: its item under a key, which is also
its position. -/
abbrev Section := String → Nat → Option Toml.Item

/-- The section in an item; none if the item cannot be one. -/
def sectionOf? : Option Toml.Item → Option Section
  | none => some fun _ _ => none
  | some (.table _ entries) => some fun key _ => Entries.lookup? key entries
  | some (.array items) => some fun _ i => items[i]?
  | some (.tables elements) => some fun _ i => (elements[i]?).map (.table .header ·)
  | some (.moment _) => some fun _ _ => none
  | some _ => none

def isEmptyItem : Toml.Item → Bool
  | .table _ entries => entries.isEmpty
  | .array items => items.isEmpty
  | .tables elements => elements.isEmpty
  | _ => false

/-- The policy that an item names: by a text, or by the one key of a table with nothing in it. -/
def policyOf? : Toml.Item → Option FaultPolicy
  | .text name => FaultPolicy.ofName? name
  | .table _ [(name, content)] => if isEmptyItem content then FaultPolicy.ofName? name else none
  | _ => none

def flagOf? : Toml.Item → Option Bool
  | .boolean b => some b
  | _ => none

def textOf? : Toml.Item → Option String
  | .text s => some s
  | _ => none

/-- The content of an item that may be absent; none if it is there and cannot be read. -/
def chosen? {α : Type} (read? : Toml.Item → Option α) (standard : α) :
    Option Toml.Item → Option α
  | none => some standard
  | some item => read? item

/-- The settings in the entries of a document. -/
def ofEntries? (entries : Entries Toml.Item) : Option Settings := do
  let runtime ← sectionOf? (Entries.lookup? "runtime" entries)
  let policy ← chosen? policyOf? standard.policy (runtime "fault_policy" 0)
  let backtrace ← chosen? flagOf? standard.backtrace (runtime "capture_backtrace" 1)
  let log ← sectionOf? (Entries.lookup? "log" entries)
  let level ← chosen? textOf? standard.level (log "level" 0)
  return ⟨policy, backtrace, level⟩

def ofText? (s : String) : Option Settings := (Toml.ofText? s).bind ofEntries?

end Settings

end ScriptValues
