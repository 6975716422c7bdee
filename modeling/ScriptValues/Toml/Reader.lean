import ScriptValues.Toml.Scalar

/-!
# Reading TOML documents

Keys, values and headers, and the document that they build up. Arrays and inline tables may be
nested, and keys dotted, up to a limit.
-/

namespace ScriptValues

namespace Toml

/-- How many arrays and inline tables may be nested, and how many parts a dotted key may have. -/
def maxDepth : Nat := 79

/-- Whether a character may stand in a bare key. -/
def isBareKey (c : Char) : Bool := c.isAlphanum || c = '-' || c = '_'

def keyPart : Reader String := do
  let cs ← basicText <|> literalText <|> Reader.takeWhile1 isBareKey
  return .ofList cs

/-- More parts of a dotted key; every part takes fuel. -/
def moreKeyParts : Nat → Reader (List String)
  | 0 => return []
  | fuel + 1 => do
    let next : Reader String := do
      Reader.char '.'
      skipGaps
      let part ← keyPart
      skipGaps
      return part
    match ← Reader.optional? next with
    | none => return []
    | some part => return part :: (← moreKeyParts fuel)

/-- A key with blanks around its parts: the path, and the last part. -/
def key : Reader (List String × String) := do
  skipGaps
  let first ← keyPart
  skipGaps
  let parts := first :: (← moreKeyParts (← fuel))
  if maxDepth < parts.length then failure
  else return (parts.dropLast, parts.getLast?.getD first)

/-- Passes over blanks, comments and line ends; every line takes fuel. -/
def skipLines : Nat → Reader Unit
  | 0 => failure
  | fuel + 1 => do
    skipGaps
    match ← Reader.peek? with
    | some '#' => do
      comment
      newline
      skipLines fuel
    | some '\n' | some '\r' => do
      newline
      skipLines fuel
    | _ => return

/-- The entries of pairs that stand in one inline table. -/
def inlineEntries (pairs : List ((List String × String) × Item)) : Option (Entries Item) :=
  pairs.foldlM (fun entries ((path, key), item) => assign key item path entries) []

mutual

/-- A value with at most `depth` levels of nesting; every step takes fuel. -/
def value : Nat → Nat → Reader Item
  | 0, _ => failure
  | fuel + 1, depth => do
    match ← Reader.peek? with
    | some '"' | some '\'' => do return .text (← text)
    | some '[' => do
      if depth = 0 then failure
      Reader.char '['
      let items ← items fuel (depth - 1)
      Reader.char ']'
      return .array items
    | some '\x7b' => do
      if depth = 0 then failure
      Reader.char '\x7b'
      let pairs ← pairs fuel (depth - 1)
      skipGaps
      Reader.char '\x7d'
      match inlineEntries pairs with
      | some entries => return .table .inlined entries
      | none => failure
    | some 't' => do
      Reader.literal ['t', 'r', 'u', 'e']
      return .boolean true
    | some 'f' => do
      Reader.literal ['f', 'a', 'l', 's', 'e']
      return .boolean false
    | _ => moment <|> decimal <|> special <|> integer

/-- The elements of an array up to its closing bracket, with a comma allowed after the last. -/
def items : Nat → Nat → Reader (List Item)
  | 0, _ => failure
  | fuel + 1, depth => do
    skipLines (fuel + 1)
    if (← Reader.peek?) = some ']' then return []
    else
      let item ← value fuel depth
      skipLines (fuel + 1)
      if (← Reader.peek?) = some ',' then
        Reader.char ','
        return item :: (← items fuel depth)
      else return [item]

/-- The pairs of an inline table up to its closing brace. -/
def pairs : Nat → Nat → Reader (List ((List String × String) × Item))
  | 0, _ => failure
  | fuel + 1, depth => do
    skipGaps
    if (← Reader.peek?) = some '\x7d' then return []
    else morePairs fuel depth

/-- One or more pairs with commas between them. -/
def morePairs : Nat → Nat → Reader (List ((List String × String) × Item))
  | 0, _ => failure
  | fuel + 1, depth => do
    let path ← key
    Reader.char '='
    skipGaps
    let item ← value fuel depth
    skipGaps
    if (← Reader.peek?) = some ',' then
      Reader.char ','
      return (path, item) :: (← morePairs fuel depth)
    else return [(path, item)]

end

/-! ## Documents -/

/-- A document that is being read: its entries, and the path of the open table. -/
structure Draft where
  entries : Entries Item
  path : List String

/-- What may stand on a line: a key with a value, or a header. -/
inductive Line where
  | pair (path : List String) (key : String) (item : Item)
  | table (path : List String) (key : String)
  | element (path : List String) (key : String)

/-- The draft after a line. -/
def Draft.add (draft : Draft) : Line → Option Draft
  | .pair path key item =>
    (changeAt (assign key item path) draft.path draft.entries).map fun entries =>
      { draft with entries := entries }
  | .table path key =>
    (changeAt (openTable key) path draft.entries).map fun entries => ⟨entries, path ++ [key]⟩
  | .element path key =>
    (changeAt (openElement key) path draft.entries).map fun entries => ⟨entries, path ++ [key]⟩

/-- The end of a line: blanks, perhaps a comment, and a line end or the end of the text. -/
def lineEnd : Reader Unit := do
  skipGaps
  let _ ← Reader.optional? comment
  match ← Reader.peek? with
  | none => return
  | some _ => newline

def header : Reader Line := do
  Reader.char '['
  if (← Reader.peek?) = some '[' then
    Reader.char '['
    let (path, last) ← key
    Reader.literal [']', ']']
    return .element path last
  else
    let (path, last) ← key
    Reader.char ']'
    return .table path last

def pair : Reader Line := do
  let (path, last) ← key
  Reader.char '='
  skipGaps
  let item ← value (2 * (← fuel) + 2) maxDepth
  return .pair path last item

/-- The lines of a document up to its end; every line takes fuel. -/
def lines : Nat → Draft → Reader Draft
  | 0, _ => failure
  | fuel + 1, draft => do
    skipGaps
    match ← Reader.peek? with
    | none => return draft
    | some c => do
      if c = '#' || c = '\n' || c = '\r' then
        lineEnd
        lines fuel draft
      else
        let line ← if c = '[' then header else pair
        lineEnd
        match draft.add line with
        | some draft => lines fuel draft
        | none => failure

/-- The entries of the document that a text denotes; a byte order mark may stand before it. -/
def ofText? (s : String) : Option (Entries Item) :=
  let cs :=
    match s.toList with
    | '\ufeff' :: rest => rest
    | cs => cs
  (Reader.readAll (lines (cs.length + 1) ⟨[], []⟩) cs).map Draft.entries

end Toml

end ScriptValues
