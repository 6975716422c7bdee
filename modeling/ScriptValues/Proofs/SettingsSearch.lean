import ScriptValues.Proofs.PathParents
import ScriptValues.Settings.Discovery

/-!
# The search for settings

Settings are looked for at a path and then at one parent after the other. The parents of a path are
those of its parts, whatever the spelling (`Path.IsParent`); there is one way up from every path, it
is as long as the path has parts, and it ends at the root or at the empty path, so the fuel of the
search always lasts. Of any file system the search finds the first file on this way, and what is
loaded is the settings or the error of this file and of no other.

    SearchLaws files start                                                          (searchLaws)

Nothing is asked of the file system: links, files that cannot be read and any other trouble are in
the answers of its view.
-/

namespace ScriptValues

namespace Settings

open ScriptValues.Path (Ascends)

/-- The settings file in the first of some directories that has one as a regular file. -/
def IsFirst (files : FileView) (paths : List String) (path : String) : Prop :=
  ∃ before directory after, paths = before ++ directory :: after ∧
    path = Path.join directory fileName ∧ files.isFile path = true ∧
    ∀ below ∈ before, files.isFile (Path.join below fileName) = false

/-- The text of a file is that of some settings. -/
def Holds (files : FileView) (path : String) (settings : Settings) : Prop :=
  ∃ text, files.readText path = .ok text ∧ ofText? text = some settings

structure SearchLaws (files : FileView) (start : String) : Prop where
  /-- There is one way up from a path. -/
  ascends : ∃! paths, Ascends start paths
  /-- It has a step for every part of the path besides the root. -/
  length_eq {paths : List String} : Ascends start paths → paths.length = Path.depth start + 1
  /-- It ends at the root, or at the empty path for a relative one. -/
  ends {paths : List String} : Ascends start paths → ∃ top, paths.getLast? = some top ∧
    if Path.isAbsolute start then Path.parts top = ["/"] else top = ""
  /-- The first file on the way is found, -/
  discover_eq_some_iff {paths : List String} {path : String} : Ascends start paths →
    (discover files start = some path ↔ IsFirst files paths path)
  /-- and nothing exactly if there is none. -/
  discover_eq_none_iff {paths : List String} : Ascends start paths →
    (discover files start = none ↔
      ∀ directory ∈ paths, files.isFile (Path.join directory fileName) = false)
  /-- The error of reading is that of the file that is found, -/
  unreadable_iff {path : String} {reason : FileError} :
    loadNearest files start = .error (.unreadable path reason) ↔
      discover files start = some path ∧ files.readText path = .error reason
  /-- and so is the error of a text that is not understood. -/
  invalid_iff {path : String} : loadNearest files start = .error (.invalid path) ↔
    discover files start = some path ∧ ∃ text, files.readText path = .ok text ∧ ofText? text = none
  /-- The settings are those of this file, -/
  found_iff {path : String} {settings : Settings} : discover files start = some path →
    (loadNearest files start = .ok settings ↔ Holds files path settings)
  /-- and the standard ones exactly if nothing is found or the file holds them. -/
  standard_iff : loadNearest files start = .ok standard ↔
    discover files start = none ∨
      ∃ path, discover files start = some path ∧ Holds files path standard
  /-- A run loads what its files answer. -/
  loads {world : World} : world.files.view = files →
    (loadDiscovered start world).1 = loadNearest files start

variable {files : FileView} {start path : String} {paths : List String} {settings : Settings}

/-! ## The way up -/

/-- Every parent is shorter than its path, so the fuel lasts until there is none. -/
theorem ascends_ancestors {fuel : Nat} (h : path.toList.length < fuel) :
    Ascends path (ancestors fuel path) := by
  induction fuel generalizing path with
  | zero => exact absurd h (Nat.not_lt_zero _)
  | succ fuel ih =>
    rw [ancestors]
    cases hparent : Path.parent? path with
    | none => exact .top (Path.parent?_eq_none_iff.1 hparent)
    | some parent =>
      have hparent := Path.parent?_eq_some_iff.1 hparent
      have hshorter := hparent.length_lt
      exact .step hparent (ih (by omega))

theorem ascends_start (start : String) : Ascends start (ancestors (start.toList.length + 1) start) :=
  ascends_ancestors (Nat.lt_succ_self _)

theorem candidates_eq (h : Ascends start paths) :
    candidates start = paths.map (Path.join · fileName) := by
  rw [candidates, h.unique (ascends_start start)]

/-! ## The first file -/

theorem discover_eq_some_iff (h : Ascends start paths) :
    discover files start = some path ↔ IsFirst files paths path := by
  rw [discover, candidates_eq h, List.find?_eq_some_iff_append]
  constructor
  · rintro ⟨hfile, before, after, hpaths, hbefore⟩
    obtain ⟨below, above, rfl, rfl, hrest⟩ := List.map_eq_append_iff.1 hpaths
    obtain ⟨directory, above, rfl, rfl, rfl⟩ := List.map_eq_cons_iff.1 hrest
    exact ⟨below, directory, above, rfl, rfl, hfile, by simpa using hbefore⟩
  · rintro ⟨before, directory, after, rfl, rfl, hfile, hbefore⟩
    exact ⟨hfile, before.map (Path.join · fileName), after.map (Path.join · fileName), by simp,
      by simpa using hbefore⟩

theorem discover_eq_none_iff (h : Ascends start paths) : discover files start = none ↔
    ∀ directory ∈ paths, files.isFile (Path.join directory fileName) = false := by
  rw [discover, candidates_eq h]
  simp

/-! ## What is loaded -/

theorem loadFrom_eq_unreadable_iff {other : String} {reason : FileError} :
    loadFrom files path = .error (.unreadable other reason) ↔
      path = other ∧ files.readText path = .error reason := by
  rw [loadFrom]
  cases htext : files.readText path with
  | error e => simp
  | ok text => cases hsettings : ofText? text <;> simp [hsettings]

theorem loadFrom_eq_invalid_iff {other : String} : loadFrom files path = .error (.invalid other) ↔
    path = other ∧ ∃ text, files.readText path = .ok text ∧ ofText? text = none := by
  rw [loadFrom]
  cases htext : files.readText path with
  | error e => simp
  | ok text => cases hsettings : ofText? text <;> simp [hsettings]

theorem loadFrom_eq_ok_iff : loadFrom files path = .ok settings ↔ Holds files path settings := by
  rw [loadFrom, Holds]
  cases htext : files.readText path with
  | error e => simp
  | ok text => cases hsettings : ofText? text <;> simp [hsettings]

/-- An error comes from the file that is found. -/
theorem loadNearest_eq_error_iff {e : SettingsError} : loadNearest files start = .error e ↔
    ∃ path, discover files start = some path ∧ loadFrom files path = .error e := by
  rw [loadNearest]
  cases discover files start <;> simp

theorem searchLaws (files : FileView) (start : String) : SearchLaws files start where
  ascends := ⟨_, ascends_start start, fun _ hothers => (ascends_start start).unique hothers⟩
  length_eq h := h.length_eq
  ends h := by
    obtain ⟨top, htop, hparts⟩ := h.exists_last
    refine ⟨top, htop, ?_⟩
    split
    · next habsolute => rwa [if_pos habsolute] at hparts
    · next hrelative =>
      rw [if_neg hrelative] at hparts
      exact Path.parts_eq_nil_iff.1 hparts
  discover_eq_some_iff := discover_eq_some_iff
  discover_eq_none_iff := discover_eq_none_iff
  unreadable_iff := by
    intro path reason
    rw [loadNearest_eq_error_iff]
    simp only [loadFrom_eq_unreadable_iff]
    constructor
    · rintro ⟨_, hfound, rfl, hread⟩
      exact ⟨hfound, hread⟩
    · rintro ⟨hfound, hread⟩
      exact ⟨path, hfound, rfl, hread⟩
  invalid_iff := by
    intro path
    rw [loadNearest_eq_error_iff]
    simp only [loadFrom_eq_invalid_iff]
    constructor
    · rintro ⟨_, hfound, rfl, hread⟩
      exact ⟨hfound, hread⟩
    · rintro ⟨hfound, hread⟩
      exact ⟨path, hfound, rfl, hread⟩
  found_iff hfound := by
    rw [loadNearest, hfound]
    exact loadFrom_eq_ok_iff
  standard_iff := by
    rw [loadNearest]
    cases hfound : discover files start with
    | none => simp
    | some path => simp [loadFrom_eq_ok_iff]
  loads := by
    rintro world rfl
    exact loadDiscovered_fst start world

end Settings

end ScriptValues
