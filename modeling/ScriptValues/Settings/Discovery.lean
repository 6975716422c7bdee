import ScriptValues.Settings

/-!
# Finding the settings file

The nearest file of the right name at or above a directory counts, where "above" goes by the text of
the path. A file that is there and cannot be read or understood is an error; without one the
standard settings hold.
-/

namespace ScriptValues

inductive SettingsError where
  | unreadable (path : String) (reason : FileError)
  | invalid (path : String)
  deriving DecidableEq

def SettingsError.message : SettingsError → String
  | .unreadable path reason => "cannot read '" ++ path ++ "': " ++ reason.message
  | .invalid path => "invalid toml in '" ++ path ++ "'"

namespace Settings

def fileName : String := "ember.toml"

/-- A path and its textual parents, the nearest first; every parent takes fuel. -/
def ancestors : Nat → String → List String
  | 0, _ => []
  | fuel + 1, path =>
    path :: (match Path.parent? path with
      | some parent => ancestors fuel parent
      | none => [])

/-- The places where a settings file is looked for. Every parent is shorter than its path. -/
def candidates (start : String) : List String :=
  (ancestors (start.toList.length + 1) start).map (Path.join · fileName)

/-- The nearest settings file at or above a path. -/
def discover (files : FileView) (start : String) : Option String :=
  (candidates start).find? files.isFile

/-- The settings in a file. -/
def loadFrom (files : FileView) (path : String) : Except SettingsError Settings :=
  match files.readText path with
  | .error reason => .error (.unreadable path reason)
  | .ok text =>
    match ofText? text with
    | some settings => .ok settings
    | none => .error (.invalid path)

/-- The settings in the nearest file, or the standard ones. -/
def loadNearest (files : FileView) (start : String) : Except SettingsError Settings :=
  match discover files start with
  | some path => loadFrom files path
  | none => .ok standard

/-- Loads the settings in a file, and reports that it is read. -/
def load (path : String) (world : World) : Except SettingsError Settings × World :=
  (loadFrom world.files path,
    { world with events := world.events ++ [.loadingSettings path] })

/-- Loads the nearest settings file, or has the standard settings. -/
def loadDiscovered (start : String) (world : World) : Except SettingsError Settings × World :=
  match discover world.files start with
  | some path => load path world
  | none => (.ok standard, world)

@[simp]
theorem loadDiscovered_fst (start : String) (world : World) :
    (loadDiscovered start world).1 = loadNearest world.files start := by
  unfold loadDiscovered loadNearest
  cases discover world.files start <;> rfl

def loadCurrent (world : World) : Except SettingsError Settings × World :=
  loadDiscovered world.files.currentPath world

end Settings

end ScriptValues
