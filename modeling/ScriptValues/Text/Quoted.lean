import ScriptValues.Text.ShownTable
import ScriptValues.Text.Ranges

/-!
# Quoted texts

A text between double quotes, in which a quote, a backslash and four controls have short escapes,
and every other character that would not show, or would join the one before it, is written by its
code point.
-/

namespace ScriptValues

/-- Whether a character can stand in a quoted text as it is. -/
def isShown (c : Char) : Bool :=
  c == ' ' || (withinBounds ShownTable.graphicBounds c.toNat
    && !withinBounds ShownTable.extendBounds c.toNat)

/-- The form of one character in a quoted text. -/
def quotedChar (c : Char) : List Char :=
  match c with
  | '\x00' => ['\\', '0']
  | '\t' => ['\\', 't']
  | '\r' => ['\\', 'r']
  | '\n' => ['\\', 'n']
  | '"' => ['\\', '"']
  | '\\' => ['\\', '\\']
  | _ =>
    if isShown c then [c]
    else ['\\', 'u', '\x7b'] ++ Nat.toDigits 16 c.toNat ++ ['\x7d']

def quoted (s : String) : String :=
  String.ofList ('"' :: s.toList.flatMap quotedChar ++ ['"'])

end ScriptValues
