import ScriptValues.Text.CaseTable
import ScriptValues.Text.Ranges

/-!
# Letter case of whole texts

The full case mappings of Unicode, independent of any locale. Every character is mapped on its own,
except that a capital sigma at the end of a word becomes the final small sigma.
-/

namespace ScriptValues

namespace Case

/-- The image of a code point under one run. -/
def runImage? (n : Nat) (run : CaseTable.Run) : Option Nat :=
  if run.first ≤ n && n ≤ run.last && (n - run.first) % run.stride == 0 then
    some (run.image + (n - run.first))
  else none

/-- The characters that replace `c`: its sequence, else its image in a run, else `c` itself. -/
def mapped (sequences : List (Nat × List Nat)) (runs : List CaseTable.Run) (c : Char) : List Char :=
  match sequences.lookup c.toNat with
  | some image => image.map Char.ofNat
  | none =>
    match runs.findSome? (runImage? c.toNat) with
    | some image => [Char.ofNat image]
    | none => [c]

def upperOf (c : Char) : List Char := mapped CaseTable.upperSequences CaseTable.upperRuns c

def lowerOf (c : Char) : List Char := mapped CaseTable.lowerSequences CaseTable.lowerRuns c

def isCased (c : Char) : Bool := withinBounds CaseTable.casedBounds c.toNat

/-- Whether a character is passed over when the neighbours of a sigma are looked for. -/
def isIgnorable (c : Char) : Bool := withinBounds CaseTable.ignorableBounds c.toNat

/-- Whether the first character that counts is cased. -/
def meetsCased (cs : List Char) : Bool :=
  match cs.dropWhile isIgnorable with
  | [] => false
  | c :: _ => isCased c

/-- Lower case of a text whose characters before it are `before`, the nearest first. -/
def lowerAfter (before : List Char) : List Char → List Char
  | [] => []
  | c :: rest =>
    let here :=
      if c = 'Σ' then (if meetsCased before && !meetsCased rest then ['ς'] else ['σ'])
      else lowerOf c
    here ++ lowerAfter (c :: before) rest

end Case

def upperCase (cs : List Char) : List Char := cs.flatMap Case.upperOf

def lowerCase (cs : List Char) : List Char := Case.lowerAfter [] cs

end ScriptValues
