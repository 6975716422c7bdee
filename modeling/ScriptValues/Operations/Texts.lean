import ScriptValues.Arguments
import ScriptValues.InRange
import ScriptValues.Text.Blank
import ScriptValues.Text.Case
import ScriptValues.Text.Segment
import ScriptValues.Value.Inspect

/-!
# Operations on texts

Positions count characters.
-/

namespace ScriptValues

namespace Texts

/-- The parts of a text between the occurrences of a separator. -/
def split (a : Arguments) : Result Value := do
  let s ← a.string 0
  let separator ← a.string 1
  return .list ((Segment.split s.toList separator.toList).map fun part => .string (.ofList part))

/-- The renderings of the elements with a separator between them. -/
def join (resolved : FutureId → Bool) (a : Arguments) : Result Value := do
  let items ← a.list 0
  let separator ← a.string 1
  return .string (separator.intercalate (items.map (Value.inspect resolved)))

/-- Whether `[start, stop)` is no range of positions up to `length`. -/
def outOfBounds (start stop : Int64) (length : Nat) : Bool :=
  start < 0 || stop < start || (length : Int) < stop.toInt

/-- The characters at the positions of a half-open range. -/
def substring (a : Arguments) : Result Value := do
  let s ← a.string 0
  let start ← a.int 1
  let stop ← a.int 2
  let length := s.toList.length
  if outOfBounds start stop length then a.fail (.bounds start stop length)
  else
    let skipped ← InRange.position start
    let taken ← InRange.position (← InRange.gap stop start)
    return .string (.ofList ((s.toList.drop skipped).take taken))

def replace (a : Arguments) : Result Value := do
  let s ← a.string 0
  let old ← a.string 1
  let new ← a.string 2
  return .string (.ofList (Segment.replace s.toList old.toList new.toList))

/-- A text changed character by character. -/
def mapped (f : List Char → List Char) (a : Arguments) : Result Value := do
  return .string (.ofList (f (← a.string 0).toList))

def trim : Arguments → Result Value := mapped stripBlanks

def toUpper : Arguments → Result Value := mapped upperCase

def toLower : Arguments → Result Value := mapped lowerCase

/-- Whether a test holds of a text and another. -/
def tested (test : List Char → List Char → Bool) (a : Arguments) : Result Value := do
  let s ← a.string 0
  let t ← a.string 1
  return .bool (test t.toList s.toList)

def contains : Arguments → Result Value := tested Segment.occurs

def startsWith : Arguments → Result Value := tested List.isPrefixOf

def endsWith : Arguments → Result Value := tested List.isSuffixOf

end Texts

end ScriptValues
