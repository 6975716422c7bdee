import ScriptValues.Arguments

/-!
# Operations on mappings

Every operation makes a new mapping. Keys, values and entries are listed in ascending order of the
keys.
-/

namespace ScriptValues

namespace Mappings

/-- The value of a key, or null. -/
def get (a : Arguments) : Result Value := do
  let entries ← a.mapping 0
  let key ← a.string 1
  return (Entries.lookup? key entries).getD .null

def set (a : Arguments) : Result Value := do
  let entries ← a.mapping 0
  let key ← a.string 1
  let value ← a.value 2
  return .mapping (Entries.insert key value entries)

def has (a : Arguments) : Result Value := do
  let entries ← a.mapping 0
  let key ← a.string 1
  return .bool (Entries.has key entries)

def keys (a : Arguments) : Result Value := do
  return .list ((← a.mapping 0).map fun entry => .string entry.1)

def values (a : Arguments) : Result Value := do
  return .list ((← a.mapping 0).map Prod.snd)

def delete (a : Arguments) : Result Value := do
  let entries ← a.mapping 0
  let key ← a.string 1
  return .mapping (Entries.erase key entries)

def clear (a : Arguments) : Result Value := do
  let _ ← a.mapping 0
  return .mapping []

/-- The entries as lists of a key and a value. -/
def entries (a : Arguments) : Result Value := do
  return .list ((← a.mapping 0).map fun entry => .list [.string entry.1, entry.2])

def size (a : Arguments) : Result Value := do
  return .int (Int64.ofNat (← a.mapping 0).length)

end Mappings

end ScriptValues
