/-!
# Paths as texts

A path is a text whose components are separated by slashes. The parent of a path is found in the
text alone: the last component is cut off, with the separators and the dots between components that
mean nothing; a leading slash or dot is a component of its own.
-/

namespace ScriptValues

namespace Path

def splitSlashes : List Char → List (List Char)
  | [] => [[]]
  | c :: cs =>
    if c = '/' then [] :: splitSlashes cs
    else
      match splitSlashes cs with
      | [] => [[c]]
      | first :: rest => (c :: first) :: rest

/-- The components of a path; an empty one comes from a slash at an end or next to another. -/
def components (path : String) : List String := (splitSlashes path.toList).map String.ofList

def isAbsolute (path : String) : Bool := path.toList.head? = some '/'

/-- A path below a directory, with one slash between them where none is there yet. -/
def join (directory name : String) : String :=
  match directory.toList.getLast? with
  | none => name
  | some '/' => directory ++ name
  | some _ => directory ++ "/" ++ name

/-- How much of the text is a leading slash or a leading dot component. -/
def headLength : List Char → Nat
  | '/' :: _ => 1
  | ['.'] => 1
  | '.' :: '/' :: _ => 1
  | _ => 0

/-- Splits the last component off a text in reverse: what comes before it, its slash included in
the cut, and the component itself. -/
def cutLast (reversed : List Char) : List Char × List Char :=
  let component := reversed.takeWhile (· ≠ '/')
  ((reversed.dropWhile (· ≠ '/')).drop 1, component)

/-- Whether a component means nothing after the head of a path. -/
def isEmptyComponent (component : List Char) : Bool := component = [] || component = ['.']

/-- Drops components that mean nothing from the end of a body, given in reverse. -/
def trimBody : Nat → List Char → List Char
  | 0, reversed => reversed
  | fuel + 1, reversed =>
    if reversed = [] then []
    else
      let (before, component) := cutLast reversed
      if isEmptyComponent component then trimBody fuel before else reversed

/-- The path without its last component; none for the root and for the empty path. -/
def parent? (path : String) : Option String :=
  let cs := path.toList
  let head := cs.take (headLength cs)
  let body := trimBody cs.length (cs.drop (headLength cs)).reverse
  if body = [] then
    match head with
    | ['.'] => some ""
    | _ => none
  else
    let (before, _) := cutLast body
    some (String.ofList (head ++ (trimBody cs.length before).reverse))

end Path

end ScriptValues
