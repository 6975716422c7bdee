import ScriptValues.Entries

/-!
# TOML tables

A document is a tree of items. A table remembers how it came about, because that decides what may
be added to it later: a header may open a table once, dotted keys may extend only what dotted keys
made, and an inline table is closed.
-/

namespace ScriptValues

namespace Toml

/-- How a table came about. -/
inductive Origin where
  /-- By a header of its own, or as the document itself. -/
  | header
  /-- On the way to the table of a header. -/
  | implied
  /-- On the way to a value with a dotted key. -/
  | dotted
  /-- Written inline. -/
  | inlined
  deriving DecidableEq, Repr

inductive Item where
  | text (s : String)
  | boolean (b : Bool)
  | integer (n : Int64)
  | double (x : Float)
  | moment (text : String)
  | array (items : List Item)
  | table (origin : Origin) (entries : List (String × Item))
  | tables (elements : List (List (String × Item)))
  deriving Inhabited

/-- Sets a key below a path of dotted keys. Refused if the key has a value, or if the path leads
through anything but tables that dotted keys or a header's path made; the table that gets the key
has to come from dotted keys itself. -/
def assign (key : String) (item : Item) : List String → Entries Item → Option (Entries Item)
  | [], entries =>
    if Entries.has key entries then none else some (Entries.insert key item entries)
  | k :: path, entries =>
    match Entries.lookup? k entries with
    | none =>
      (assign key item path []).map fun inner =>
        Entries.insert k (.table .dotted inner) entries
    | some (.table origin inner) =>
      if origin = .dotted || (origin = .implied && !path.isEmpty) then
        (assign key item path inner).map fun inner =>
          Entries.insert k (.table origin inner) entries
      else none
    | some (.tables elements) =>
      if path.isEmpty then none
      else
        match elements.getLast? with
        | none => none
        | some element =>
          (assign key item path element).map fun element =>
            Entries.insert k (.tables (elements.dropLast ++ [element])) entries
    | some _ => none

/-- Changes the table that a header's path leads to. Missing tables are implied; an array of tables
stands for its last element. -/
def changeAt (change : Entries Item → Option (Entries Item)) :
    List String → Entries Item → Option (Entries Item)
  | [], entries => change entries
  | k :: path, entries =>
    match Entries.lookup? k entries with
    | none =>
      (changeAt change path []).map fun inner =>
        Entries.insert k (.table .implied inner) entries
    | some (.table origin inner) =>
      if origin = .inlined then none
      else
        (changeAt change path inner).map fun inner =>
          Entries.insert k (.table origin inner) entries
    | some (.tables elements) =>
      match elements.getLast? with
      | none => none
      | some element =>
        (changeAt change path element).map fun element =>
          Entries.insert k (.tables (elements.dropLast ++ [element])) entries
    | some _ => none

/-- Opens the table of a header: a new one, or one that a header's path has implied. -/
def openTable (key : String) (entries : Entries Item) : Option (Entries Item) :=
  match Entries.lookup? key entries with
  | none => some (Entries.insert key (.table .header []) entries)
  | some (.table .implied inner) => some (Entries.insert key (.table .header inner) entries)
  | some _ => none

/-- Opens a new element of an array of tables. -/
def openElement (key : String) (entries : Entries Item) : Option (Entries Item) :=
  match Entries.lookup? key entries with
  | none => some (Entries.insert key (.tables [[]]) entries)
  | some (.tables elements) => some (Entries.insert key (.tables (elements ++ [[]])) entries)
  | some _ => none

end Toml

end ScriptValues
