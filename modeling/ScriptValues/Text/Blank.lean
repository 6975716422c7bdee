import ScriptValues.Text.Ranges

/-!
# Blank characters

The Unicode property `White_Space`, and stripping it from both ends of a text.
-/

namespace ScriptValues

/-- Where the blank characters begin and end, alternately. -/
def blankBounds : List Nat :=
  [0x9, 0xe, 0x20, 0x21, 0x85, 0x86, 0xa0, 0xa1, 0x1680, 0x1681, 0x2000, 0x200b,
   0x2028, 0x202a, 0x202f, 0x2030, 0x205f, 0x2060, 0x3000, 0x3001]

/-- Whether a character is white space. -/
def isBlank (c : Char) : Bool := withinBounds blankBounds c.toNat

/-- The characters without those at the end that `drop` accepts. -/
def dropWhileEnd (drop : Char → Bool) (cs : List Char) : List Char :=
  (cs.reverse.dropWhile drop).reverse

/-- The characters between the blanks at both ends. -/
def stripBlanks (cs : List Char) : List Char := dropWhileEnd isBlank (cs.dropWhile isBlank)

end ScriptValues
