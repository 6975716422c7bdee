import ScriptValues.CommandLine

/-!
# The program

The outer layer of the command line. It takes a picture of the places that a request may reach,
reads standard input, runs the request in that world, writes the two outputs, and puts the files
that changed back in place.
-/

namespace ScriptValues

namespace Program

open CommandLine

/-- The paths that a call of a builtin opens. -/
def callPaths (name : String) (arguments : List String) : List String :=
  match (Builtin.lookup? name).map Builtin.operation with
  | some .readFile | some .writeFile =>
    ((arguments.take 1).map argumentValue).filterMap Value.asString?
  | _ => []

/-- The paths that a request may open, run from a directory. -/
def requestPaths (current : String) : Request → List String
  | .run settings command =>
    settings.elim (Settings.candidates current) ([·]) ++
      (match command with
        | .call name arguments => callPaths name arguments
        | .list => [])
  | _ => []

/-- The places along a path, from the place where its walk starts. -/
def placesAlong : List String → List String → List (List String)
  | place, [] => [place]
  | place, component :: rest =>
    if component = "" || component = "." then placesAlong place rest
    else if component = ".." then place :: placesAlong place.dropLast rest
    else place :: placesAlong (place ++ [component]) rest

/-- The absolute path of a place. -/
def placePath (place : List String) : String := "/" ++ "/".intercalate place

/-- What is at a place; a directory comes without its entries. -/
def look (place : List String) : IO (Option Node) := do
  try
    let path ← IO.FS.realPath (placePath place)
    if ← path.isDir then return some (.directory [])
    else return some (.file (← IO.FS.readBinFile path).toList)
  catch _ => return none

/-- The files with what is at a place, unless the place is known. -/
def addPlace (files : FileTree) (place : List String) : IO FileTree := do
  if (files.root.find? place).isSome then return files
  match ← look place with
  | some node => return { files with root := Node.place node place files.root }
  | none => return files

/-- The files along some paths. -/
def snapshot (current : List String) (paths : List String) : IO FileTree := do
  let start : FileTree := ⟨.directory [], current⟩
  let here := placesAlong [] current
  let along := paths.filter (FileTree.pathError? · |>.isNone) |>.flatMap fun path =>
    placesAlong (start.start path) (Path.components path)
  (here ++ along).foldlM addPlace start

/-- Everything on standard input. -/
def readInput : IO (List UInt8) := do
  let stdin ← IO.getStdin
  let mut bytes := ByteArray.empty
  repeat
    let chunk ← stdin.read 65536
    if chunk.isEmpty then break
    bytes := bytes ++ chunk
  return bytes.toList

/-- Whether a request reads standard input. -/
def readsInput : Request → Bool
  | .run _ (.call name _) => (Builtin.lookup? name).map Builtin.operation = some .readLine
  | _ => false

/-- Writes the files that differ from what was there before. -/
def writeChanges (before after : FileTree) : IO Unit :=
  (after.root.files "").forM fun (path, content) => do
    match before.root.find? (Path.components path) with
    | some (.file old) => if old ≠ content then write path content
    | _ => write path content
where
  write (path : String) (content : List UInt8) : IO Unit :=
    IO.FS.writeBinFile ("/" ++ path) ⟨content.toArray⟩

end Program

end ScriptValues

open ScriptValues in
/-- Runs the command line in the directory where it was started. -/
def main (tokens : List String) : IO UInt32 := do
  let request := CommandLine.Request.ofTokens tokens
  let current := (← IO.currentDir).toString
  let place := (Path.components current).filter (· ≠ "")
  let files ← Program.snapshot place (Program.requestPaths current request)
  let input ← if Program.readsInput request then Program.readInput else pure []
  let (exit, world) := request.perform ⟨input, "", files, .empty, []⟩
  Program.writeChanges files world.files
  (← IO.getStdout).putStr exit.output
  unless exit.diagnostics.isEmpty do (← IO.getStderr).putStrLn exit.diagnostics
  return UInt32.ofNat exit.code
