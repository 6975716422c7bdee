import ScriptValues.Text.Blank
import ScriptValues.World

/-!
# Lines of standard input

One line is the bytes up to and including the next line feed, or all that is left. Its text is
without the line feeds and carriage returns at its end.
-/

namespace ScriptValues

namespace Console

def lineFeed : UInt8 := 10

/-- The next line with its line feed, and the rest. -/
def takeLine : List UInt8 → List UInt8 × List UInt8
  | [] => ([], [])
  | b :: rest =>
    if b = lineFeed then ([b], rest)
    else
      let (line, after) := takeLine rest
      (b :: line, after)

/-- Whether a character belongs to the end of a line. -/
def isLineEnd (c : Char) : Bool := c = '\n' || c = '\r'

/-- The text of a line without its end. -/
def lineText (s : String) : String := .ofList (dropWhileEnd isLineEnd s.toList)

theorem takeLine_append (bytes : List UInt8) :
    (takeLine bytes).1 ++ (takeLine bytes).2 = bytes := by
  induction bytes with
  | nil => rfl
  | cons b rest ih =>
    simp only [takeLine]
    split <;> simp [ih]

end Console

end ScriptValues
