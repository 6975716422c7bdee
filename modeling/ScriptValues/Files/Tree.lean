import ScriptValues.Entries
import ScriptValues.Files.Path

/-!
# The file tree

Regular files and directories below one root, with a current directory. A path is walked component
by component; the walk stops at the first component that is missing, too long, or asked of
something that is not a directory. Reading and writing take whole files. A program that only looks
at paths sees a view: which of them are regular files, and what reading them gives.
-/

namespace ScriptValues

/-- A file or a directory with named entries. -/
inductive Node where
  | file (content : List UInt8)
  | directory (entries : List (String × Node))
  deriving Inhabited

inductive FileError where
  | notFound
  | notADirectory
  | isADirectory
  | nameTooLong
  | nulInPath
  | notUtf8
  /-- Any other reason, in the words of the system. -/
  | other (message : String)
  deriving DecidableEq, Repr

def FileError.message : FileError → String
  | .notFound => "No such file or directory (os error 2)"
  | .notADirectory => "Not a directory (os error 20)"
  | .isADirectory => "Is a directory (os error 21)"
  | .nameTooLong => "File name too long (os error 36)"
  | .nulInPath => "file name contained an unexpected NUL byte"
  | .notUtf8 => "stream did not contain valid UTF-8"
  | .other message => message

def utf8Text? (bytes : List UInt8) : Option String := String.fromUTF8? ⟨bytes.toArray⟩

def utf8Bytes (s : String) : List UInt8 := s.toUTF8.data.toList

namespace Node

/-- The node at the end of a list of names. -/
def find? : List String → Node → Option Node
  | [], node => some node
  | _ :: _, .file _ => none
  | name :: names, .directory entries =>
    match Entries.lookup? name entries with
    | some node => find? names node
    | none => none

/-- The node with another one at the end of a list of names; directories are made on the way. -/
def place (new : Node) : List String → Node → Node
  | [], _ => new
  | name :: names, .directory entries =>
    let below := (Entries.lookup? name entries).getD (.directory [])
    .directory (Entries.insert name (place new names below) entries)
  | name :: names, .file _ => .directory [(name, place new names (.directory []))]

def isDirectory : Node → Bool
  | .directory _ => true
  | .file _ => false

mutual

/-- Every file below a node, with the path that leads to it from `base`. -/
def files (base : String) : Node → List (String × List UInt8)
  | .file content => [(base, content)]
  | .directory entries => filesOfEntries base entries

/-- Every file below the entries of a directory. -/
def filesOfEntries (base : String) : List (String × Node) → List (String × List UInt8)
  | [] => []
  | (name, node) :: rest => files (Path.join base name) node ++ filesOfEntries base rest

end

end Node

/-- What a file system answers about paths, whatever it is made of. -/
structure FileView where
  /-- Whether a path names a regular file. -/
  isFile : String → Bool
  /-- The text of the file that a path names. -/
  readText : String → Except FileError String

/-- All files, and the names that lead to the current directory. -/
structure FileTree where
  root : Node
  current : List String

namespace FileTree

/-- The longest name of a file, in bytes. -/
def maxName : Nat := 255

/-- The longest path, in bytes. -/
def maxPath : Nat := 4095

/-- Whether a node of this place is a directory. -/
def isDirectoryAt (tree : FileTree) (place : List String) : Bool :=
  ((tree.root.find? place).map Node.isDirectory).getD false

/-- The place reached from a directory by one component. -/
def step (tree : FileTree) (place : List String) (component : String) :
    Except FileError (List String) :=
  if !tree.isDirectoryAt place then .error .notADirectory
  else if component = "" || component = "." then .ok place
  else if component = ".." then .ok place.dropLast
  else if maxName < component.utf8ByteSize then .error .nameTooLong
  else if (tree.root.find? (place ++ [component])).isSome then .ok (place ++ [component])
  else .error .notFound

/-- The place reached by a list of components. -/
def walk (tree : FileTree) : List String → List String → Except FileError (List String)
  | place, [] => .ok place
  | place, component :: rest =>
    match tree.step place component with
    | .ok next => tree.walk next rest
    | .error e => .error e

/-- What makes a path unusable before any walk. -/
def pathError? (path : String) : Option FileError :=
  if '\x00' ∈ path.toList then some .nulInPath
  else if path = "" then some .notFound
  else if maxPath < path.utf8ByteSize then some .nameTooLong
  else none

/-- Where the walk of a path starts. -/
def start (tree : FileTree) (path : String) : List String :=
  if Path.isAbsolute path then [] else tree.current

/-- The place that a path names. -/
def resolve (tree : FileTree) (path : String) : Except FileError (List String) :=
  match pathError? path with
  | some e => .error e
  | none => tree.walk (tree.start path) (Path.components path)

def readBytes (tree : FileTree) (path : String) : Except FileError (List UInt8) :=
  match tree.resolve path with
  | .error e => .error e
  | .ok place =>
    match tree.root.find? place with
    | some (.file content) => .ok content
    | some (.directory _) => .error .isADirectory
    | none => .error .notFound

def readText (tree : FileTree) (path : String) : Except FileError String :=
  match tree.readBytes path with
  | .error e => .error e
  | .ok bytes =>
    match utf8Text? bytes with
    | some s => .ok s
    | none => .error .notUtf8

def isFile (tree : FileTree) (path : String) : Bool :=
  match tree.readBytes path with
  | .ok _ => true
  | .error _ => false

/-- The place of the file that writing to a path makes or replaces. The directory above has to be
there; a path that ends in a slash or in a dot component can only name a directory. -/
def target (tree : FileTree) (path : String) : Except FileError (List String) :=
  match pathError? path with
  | some e => .error e
  | none =>
    let components := (Path.components path).filter (· ≠ "")
    match components.getLast? with
    | none => .error .isADirectory
    | some last =>
      match tree.walk (tree.start path) (components.dropLast) with
      | .error e => .error e
      | .ok directory =>
        if !tree.isDirectoryAt directory then .error .notADirectory
        else if last = "." || last = ".." || path.toList.getLast? = some '/' then
          .error .isADirectory
        else if maxName < last.utf8ByteSize then .error .nameTooLong
        else if tree.isDirectoryAt (directory ++ [last]) then .error .isADirectory
        else .ok (directory ++ [last])

/-- The tree after a text was written to a path. -/
def writeText (tree : FileTree) (path text : String) : Except FileError FileTree :=
  match tree.target path with
  | .error e => .error e
  | .ok names => .ok { tree with root := Node.place (.file (utf8Bytes text)) names tree.root }

def currentPath (tree : FileTree) : String := "/" ++ "/".intercalate tree.current

/-- The tree as it is seen through its paths. -/
def view (tree : FileTree) : FileView := ⟨tree.isFile, tree.readText⟩

instance : Coe FileTree FileView := ⟨view⟩

@[simp]
theorem view_isFile (tree : FileTree) : tree.view.isFile = tree.isFile := rfl

@[simp]
theorem view_readText (tree : FileTree) : tree.view.readText = tree.readText := rfl

end FileTree

end ScriptValues
