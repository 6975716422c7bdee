import Mathlib.Data.List.Infix
import Mathlib.Data.List.MinMax
import ScriptValues.Proofs.FilledTrees
import ScriptValues.Proofs.SettingsSearch

/-!
# The nearest settings

The search goes up by the text of a path, so it looks in the places that the path comes by. These
are the directories at and above the one that the path names if it starts at the root and never
leaves a place by two dots that it does not come back to: such a path is `Straight`. Otherwise the
search can miss the settings above the current directory, or find those of a directory that the path
only passes.

    Names tree start place → Ascends start paths → Retraces tree start paths             (retraces)
    (∀ tree place, Names tree start place → FindsNearest tree start place) ↔ Straight start
                                                                                     (nearestLaws)

For the second direction there is a tree for each path that is not straight: `settingsAtRoot` has its
settings above where a relative path starts, `settingsBeside` in a place that is passed.
-/

namespace ScriptValues

namespace Path

/-- A path from the root that passes no place but the one that it leads to and those above it. -/
def Straight (path : String) : Prop := isAbsolute path = true ∧
  ∀ front ∈ (steps path).inits, front.foldl follow [] <+: (steps path).foldl follow []

/-- A path from the root without two dots is straight. -/
theorem straight_of_not_mem {path : String} (hroot : isAbsolute path = true)
    (hdots : ".." ∉ steps path) : Straight path := by
  have hsteps : ∀ component ∈ steps path, component ≠ "/" ∧ component ≠ "." := fun component h =>
    ⟨(ne_of_mem_steps h).1, (ne_of_mem_steps h).2.2⟩
  refine ⟨hroot, fun front hfront => ?_⟩
  have hfront := (List.mem_inits _ _).1 hfront
  rw [foldl_follow_of_not_mem hdots hsteps, foldl_follow_of_not_mem
    (fun hmem => hdots (hfront.subset hmem)) fun c hc => hsteps c (hfront.subset hc)]
  exact hfront

instance (path : String) : Decidable (Straight path) :=
  inferInstanceAs (Decidable (_ ∧ _))

/-- Two dots may lead back on a way that is taken again. -/
example : Straight "/a/../a/./b" ∧ ¬ Straight "/a/../b" := by decide +kernel

end Path

namespace Settings

open ScriptValues.Path FileTree

/-- A directory has settings: a regular file of the right name. -/
def HasSettings (tree : FileTree) (place : List String) : Prop := tree.HasFile (place ++ [fileName])

/-- The search finds the nearest settings at or above a directory. -/
structure FindsNearest (tree : FileTree) (start : String) (place : List String) : Prop where
  /-- What is found is the file of a directory at or above it, and no other that has settings is
  between the two. -/
  found {path : String} : discover tree start = some path → ∃ nearest, nearest <+: place ∧
    HasSettings tree nearest ∧ tree.resolve path = .ok (nearest ++ [fileName]) ∧
    ∀ other, other <+: place → HasSettings tree other → other <+: nearest
  /-- Nothing is found only where there are none. -/
  missed : discover tree start = none → ∀ other, other <+: place → ¬ HasSettings tree other

variable {tree : FileTree} {start path other : String} {place : List String} {paths : List String}

theorem isName_fileName : IsName fileName where
  noSlash := by decide
  noNul := by decide
  ne_empty := by decide
  ne_dot := by decide
  ne_dots := by decide
  short := by decide

/-- Whether a file is found from a path upwards goes by the place that the path leads to. -/
theorem isFile_iff_hasSettings (h : tree.Names start place) (hascends : Ascends start paths)
    (hshort : (join start fileName).utf8ByteSize ≤ maxPath) (hother : other ∈ paths) :
    tree.isFile (join other fileName) = true ↔
      HasSettings tree (placeFrom tree.current other) := by
  have hfront := hascends.isFront hother
  obtain ⟨hwalk, hdirectory⟩ := h.walk_front hfront
  rw [isFile_join_iff isName_fileName hwalk hdirectory]
  exact and_iff_right (pathError?_join isName_fileName (names_iff.1 h).1 hfront.text hshort)

/-- The search goes to the places that the paths upwards lead to, whatever is above the directory. -/
structure Retraces (tree : FileTree) (start : String) (paths : List String) : Prop where
  /-- What is found belongs to the first of these places that has settings, -/
  found_iff {path : String} : discover tree start = some path ↔
    ∃ before directory after, paths = before ++ directory :: after ∧
      path = join directory fileName ∧ HasSettings tree (placeFrom tree.current directory) ∧
      ∀ below ∈ before, ¬ HasSettings tree (placeFrom tree.current below)
  /-- and it is the file there. -/
  resolve_eq {directory : String} : directory ∈ paths →
    HasSettings tree (placeFrom tree.current directory) →
    tree.resolve (join directory fileName) = .ok (placeFrom tree.current directory ++ [fileName])
  /-- Nothing is found exactly if none of them has settings. -/
  missed_iff : discover tree start = none ↔
    ∀ directory ∈ paths, ¬ HasSettings tree (placeFrom tree.current directory)

theorem retraces (h : tree.Names start place) (hascends : Ascends start paths)
    (hshort : (join start fileName).utf8ByteSize ≤ maxPath) : Retraces tree start paths where
  found_iff := by
    intro path
    have hfile : ∀ other ∈ paths, (tree.view.isFile (join other fileName) = true ↔
        HasSettings tree (placeFrom tree.current other)) :=
      fun other => isFile_iff_hasSettings h hascends hshort
    rw [discover_eq_some_iff hascends]
    constructor
    · rintro ⟨before, directory, after, rfl, rfl, hfound, hbefore⟩
      refine ⟨before, directory, after, rfl, rfl, (hfile _ (by simp)).1 hfound, ?_⟩
      intro below hbelow hsettings
      rw [← hfile below (by simp [hbelow]), hbefore below hbelow] at hsettings
      cases hsettings
    · rintro ⟨before, directory, after, rfl, rfl, hfound, hbefore⟩
      refine ⟨before, directory, after, rfl, rfl, (hfile _ (by simp)).2 hfound, ?_⟩
      intro below hbelow
      rw [← Bool.not_eq_true, hfile below (by simp [hbelow])]
      exact hbefore below hbelow
  resolve_eq := by
    rintro directory hdirectory ⟨content, hsettings⟩
    have hfront := hascends.isFront hdirectory
    obtain ⟨hwalk, hthere⟩ := h.walk_front hfront
    exact (resolve_join_iff isName_fileName hwalk hthere).2
      ⟨pathError?_join isName_fileName (names_iff.1 h).1 hfront.text hshort, rfl, by simp [hsettings]⟩
  missed_iff := by
    rw [discover_eq_none_iff hascends]
    refine forall₂_congr fun directory hdirectory => ?_
    rw [← isFile_iff_hasSettings h hascends hshort hdirectory, Bool.not_eq_true]
    rfl

/-! ## Straight paths -/

/-- On the way up from a path, every place above the one that it leads to is come by, and only after
places below it. -/
theorem exists_place_eq (h : Ascends path paths) (hroot : isAbsolute path = true)
    {current above : List String} (habove : above <+: placeFrom current path) :
    ∃ before directory after, paths = before ++ directory :: after ∧
      placeFrom current directory = above ∧
      ∀ below ∈ before, above <+: placeFrom current below := by
  induction h with
  | @top path htop =>
    have hplace : placeFrom current path = [] := by
      rw [placeFrom, htop.parts_eq, if_pos hroot]
      rfl
    rw [hplace, List.prefix_nil] at habove
    exact ⟨[], path, [], rfl, hplace.trans habove.symm, by simp⟩
  | @step path parent rest hparent hascends ih =>
    by_cases heq : above = placeFrom current path
    · exact ⟨[], path, rest, rfl, heq.symm, by simp⟩
    · obtain ⟨last, hlast, hplace⟩ := hparent.placeFrom_eq current
      have hbelow : above <+: placeFrom current parent := by
        rw [hplace] at habove heq
        exact isPrefix_of_follow hlast habove heq
      obtain ⟨before, directory, after, rfl, hdirectory, hbefore⟩ :=
        ih (hparent.isAbsolute_iff.1 hroot) hbelow
      exact ⟨path :: before, directory, after, rfl, hdirectory, by simpa [habove] using hbefore⟩

/-- Of two elements of a list one comes first, if they are not one. -/
theorem eq_or_mem_of_append_cons {α : Type} {before before' after after' : List α} {x y : α}
    (h : before ++ x :: after = before' ++ y :: after') : x = y ∨ x ∈ before' ∨ y ∈ before := by
  rcases List.append_eq_append_iff.1 h with ⟨between, rfl, hrest⟩ | ⟨between, rfl, hrest⟩
  · rcases List.cons_eq_append_iff.1 hrest with ⟨rfl, hy⟩ | ⟨more, rfl, -⟩
    · exact .inl (List.cons_eq_cons.1 hy).1.symm
    · exact .inr (.inl (by simp))
  · rcases List.cons_eq_append_iff.1 hrest with ⟨rfl, hx⟩ | ⟨more, rfl, -⟩
    · exact .inl (List.cons_eq_cons.1 hx).1
    · exact .inr (.inr (by simp))

/-- From a straight path nothing but the nearest settings is found. -/
theorem findsNearest_of_straight (hstraight : Straight start) (h : tree.Names start place)
    (hshort : (join start fileName).utf8ByteSize ≤ maxPath) : FindsNearest tree start place := by
  obtain ⟨hroot, hpassed⟩ := hstraight
  have hascends := ascends_start start
  have hlaws := retraces h hascends hshort
  generalize ancestors (start.toList.length + 1) start = paths at hascends hlaws
  obtain rfl := h.eq_placeFrom
  constructor
  · intro path hfound
    obtain ⟨before, directory, after, hpaths, rfl, hsettings, hbefore⟩ := hlaws.found_iff.1 hfound
    have hmem : directory ∈ paths := by simp [hpaths]
    have hfront := hascends.isFront hmem
    refine ⟨placeFrom tree.current directory, ?_, hsettings, hlaws.resolve_eq hmem hsettings, ?_⟩
    · rw [placeFrom_of_isAbsolute hroot, placeFrom_of_isAbsolute (hfront.isAbsolute_eq.trans hroot)]
      exact hpassed _ ((List.mem_inits _ _).2 hfront.steps)
    · intro other hother hothers
      obtain ⟨before', directory', after', hpaths', rfl, hbefore'⟩ :=
        exists_place_eq hascends hroot hother
      rcases eq_or_mem_of_append_cons (hpaths.symm.trans hpaths') with rfl | hearlier | hearlier
      · exact List.prefix_rfl
      · exact hbefore' directory hearlier
      · exact absurd hothers (hbefore directory' hearlier)
  · intro hmissed other hother hothers
    obtain ⟨before, directory, after, hpaths, rfl, -⟩ := exists_place_eq hascends hroot hother
    exact hlaws.missed_iff.1 hmissed directory (by simp [hpaths]) hothers

/-! ## Other paths -/

/-- A path that names a directory of some tree is usable in every tree. -/
theorem usable_of_names (h : tree.Names start place) : pathError? start = none ∧
    ∀ component ∈ steps start, component.utf8ByteSize ≤ maxName := by
  obtain ⟨herror, hwalk, -⟩ := names_iff.1 h
  exact ⟨herror, utf8ByteSize_le_of_walk hwalk⟩

/-- A few steps from deep below a directory do not leave it. -/
theorem exists_foldl_follow_eq_cons {name : String} {rest components : List String}
    (hsteps : ∀ component ∈ components, component ≠ "/") (h : components.length ≤ rest.length) :
    ∃ below, components.foldl follow (name :: rest) = name :: below := by
  induction components generalizing rest with
  | nil => exact ⟨rest, rfl⟩
  | cons component components ih =>
    rw [List.length_cons] at h
    have hnext : ∃ below, follow (name :: rest) component = name :: below ∧
        components.length ≤ below.length := by
      rw [follow, if_neg (hsteps component List.mem_cons_self)]
      split
      · exact ⟨rest, rfl, by omega⟩
      · split
        · have hne : rest ≠ [] := List.length_pos_iff.1 (by omega)
          refine ⟨rest.dropLast, List.dropLast_cons_of_ne_nil hne, ?_⟩
          rw [List.length_dropLast]
          omega
        · refine ⟨rest ++ [component], rfl, ?_⟩
          rw [List.length_append]
          omega
    obtain ⟨below, hbelow, hlength⟩ := hnext
    rw [List.foldl_cons, hbelow]
    exact ih (fun c hc => hsteps c (List.mem_cons_of_mem _ hc)) hlength

/-- A place deeper than the steps of a path can climb. -/
def farDown (start : String) : List String := "x" :: List.replicate (steps start).length "x"

/-- Settings at the root, seen from far down. -/
def settingsAtRoot (start : String) : FileTree :=
  filled (fileName :: "x" :: steps start) [fileName]
    ((farDown start).length + (steps start).length) (farDown start)

theorem exists_below_farDown {front : List String} (hfront : front <+: steps start) :
    ∃ below, front.foldl follow (farDown start) = "x" :: below := by
  refine exists_foldl_follow_eq_cons (fun c hc => (ne_of_mem_steps (hfront.subset hc)).1) ?_
  rw [List.length_replicate]
  exact hfront.length_le

theorem names_settingsAtRoot (h : tree.Names start place) (hrelative : isAbsolute start = false) :
    (settingsAtRoot start).Names start (placeFrom (farDown start) start) := by
  obtain ⟨herror, hsizes⟩ := usable_of_names h
  refine names_filled herror hsizes ?_ le_rfl fun front hfront => ?_
  · intro name hname
    simp only [farDown, List.mem_append, List.mem_cons, List.mem_replicate] at hname ⊢
    tauto
  · obtain ⟨below, hbelow⟩ := exists_below_farDown hfront
    rw [hrelative, if_neg Bool.false_ne_true, hbelow]
    exact fun hfile => absurd (List.cons_prefix_cons.1 hfile).1 (by decide)

/-- A search from a relative path never looks above where the path starts. -/
theorem not_findsNearest_of_relative (h : tree.Names start place)
    (hshort : (join start fileName).utf8ByteSize ≤ maxPath) (hrelative : isAbsolute start = false) :
    ¬ FindsNearest (settingsAtRoot start) start (placeFrom (farDown start) start) := by
  intro hnearest
  have hascends := ascends_start start
  have hlaws := retraces (names_settingsAtRoot h hrelative) hascends hshort
  cases hfound : discover (settingsAtRoot start) start with
  | none =>
    refine hnearest.missed hfound [] List.nil_prefix (hasFile_filled (by simp) ?_)
    have hlength : (farDown start).length = (steps start).length + 1 := by simp [farDown]
    rw [hlength, List.length_singleton]
    omega
  | some path =>
    obtain ⟨before, directory, after, hpaths, -, hsettings, -⟩ := hlaws.found_iff.1 hfound
    have hmem : directory ∈ ancestors (start.toList.length + 1) start := by simp [hpaths]
    have hfront := hascends.isFront hmem
    have hfile : placeFrom (farDown start) directory ++ [fileName] = [fileName] :=
      eq_of_hasFile_filled hsettings
    obtain ⟨below, hbelow⟩ := exists_below_farDown hfront.steps
    rw [placeFrom_of_relative (hfront.isAbsolute_eq.trans hrelative), hbelow] at hfile
    simp at hfile

/-- Settings below a place that a path passes. -/
def settingsBeside (start : String) (front : List String) : FileTree :=
  filled (fileName :: steps start) (front.foldl follow [] ++ [fileName]) ((steps start).length + 1) []

/-- A front of a path leads to no place above that of the path, and no such front leads deeper. -/
structure Astray (start : String) (front : List String) : Prop where
  isFront : front <+: steps start
  not_above : ¬ front.foldl follow [] <+: (steps start).foldl follow []
  deepest {other : List String} : other <+: steps start →
    ¬ other.foldl follow [] <+: (steps start).foldl follow [] →
    (other.foldl follow []).length ≤ (front.foldl follow []).length

/-- The fronts of a path that lead to no place above that of the path. -/
def strays (start : String) : List (List String) :=
  (steps start).inits.filter fun front =>
    ¬ front.foldl follow [] <+: (steps start).foldl follow []

theorem mem_strays_iff {front : List String} : front ∈ strays start ↔
    front <+: steps start ∧ ¬ front.foldl follow [] <+: (steps start).foldl follow [] := by
  simp [strays]

theorem exists_astray (h : strays start ≠ []) : ∃ front, Astray start front := by
  cases hdeepest : (strays start).argmax fun front => (front.foldl follow []).length with
  | none => exact absurd (List.argmax_eq_none.1 hdeepest) h
  | some front =>
    obtain ⟨hfront, hplace⟩ := mem_strays_iff.1 (List.argmax_mem hdeepest)
    refine ⟨front, hfront, hplace, fun hother hbeside => ?_⟩
    have hle := List.le_of_mem_argmax (mem_strays_iff.2 ⟨hother, hbeside⟩) hdeepest
    exact hle

theorem straight_iff : Straight start ↔ isAbsolute start = true ∧ strays start = [] := by
  rw [Straight, strays, List.filter_eq_nil_iff]
  simp

theorem names_settingsBeside {front : List String} (h : tree.Names start place)
    (hroot : isAbsolute start = true) (hastray : Astray start front) :
    (settingsBeside start front).Names start ((steps start).foldl follow []) := by
  obtain ⟨herror, hsizes⟩ := usable_of_names h
  rw [← placeFrom_of_isAbsolute hroot []]
  refine names_filled herror hsizes ?_ (by simp) fun other hother hfile => ?_
  · intro name hname
    exact List.mem_cons_of_mem _ hname
  · rw [if_pos hroot] at hfile
    -- the front goes deepest of those that lead astray, so what comes by the file is none of them
    have habove : other.foldl follow [] <+: (steps start).foldl follow [] := by
      by_contra hbeside
      have hdeepest := hastray.deepest hother hbeside
      have hlength := hfile.length_le
      rw [List.length_append, List.length_singleton] at hlength
      omega
    exact hastray.not_above (((List.prefix_append _ _).trans hfile).trans habove)

/-- A search from a path that goes astray finds settings there. -/
theorem not_findsNearest_of_astray {front : List String} (h : tree.Names start place)
    (hshort : (join start fileName).utf8ByteSize ≤ maxPath) (hroot : isAbsolute start = true)
    (hastray : Astray start front) :
    ¬ FindsNearest (settingsBeside start front) start ((steps start).foldl follow []) := by
  intro hnearest
  have hascends := ascends_start start
  have hlaws := retraces (names_settingsBeside h hroot hastray) hascends hshort
  have hfile : (settingsBeside start front).HasFile (front.foldl follow [] ++ [fileName]) := by
    refine hasFile_filled (fun name hname => ?_) ?_
    · rcases List.mem_append.1 hname with hmem | hmem
      · have hstep : name ∈ front := by simpa using mem_foldl_follow hmem
        exact List.mem_cons_of_mem _ (hastray.isFront.subset hstep)
      · exact List.mem_singleton.1 hmem ▸ List.mem_cons_self
    · have hlength := length_foldl_follow_le front []
      have hfrontLength := hastray.isFront.length_le
      rw [List.length_nil] at hlength
      rw [List.length_append, List.length_singleton]
      omega
  cases hfound : discover (settingsBeside start front) start with
  | none =>
    obtain ⟨other, hother, rfl⟩ := hascends.exists_steps_eq hroot hastray.isFront
    have hotherRoot := (hascends.isFront hother).isAbsolute_eq.trans hroot
    refine hlaws.missed_iff.1 hfound other hother ?_
    rwa [HasSettings, placeFrom_of_isAbsolute hotherRoot]
  | some path =>
    obtain ⟨nearest, habove, hsettings, -⟩ := hnearest.found hfound
    have heq : nearest ++ [fileName] = front.foldl follow [] ++ [fileName] :=
      eq_of_hasFile_filled hsettings
    rw [List.append_left_inj] at heq
    exact hastray.not_above (heq ▸ habove)

/-! ## The laws -/

/-- Where settings are looked for from a path, and when they are the nearest ones. -/
structure NearestLaws (start : String) : Prop where
  /-- The search looks where the path and its textual parents lead. -/
  retraces {tree : FileTree} {place paths : List String} : tree.Names start place →
    Ascends start paths → Retraces tree start paths
  /-- In every tree it finds the nearest settings exactly if the path is a straight one. -/
  nearest_iff : (∀ tree place, tree.Names start place → FindsNearest tree start place) ↔
    Straight start

theorem nearestLaws (hnames : ∃ tree place, FileTree.Names tree start place)
    (hshort : (join start fileName).utf8ByteSize ≤ maxPath) : NearestLaws start where
  retraces h hascends := Settings.retraces h hascends hshort
  nearest_iff := by
    obtain ⟨tree, place, h⟩ := hnames
    constructor
    · intro hnearest
      have hroot : isAbsolute start = true := by
        by_contra hrelative
        rw [Bool.not_eq_true] at hrelative
        exact not_findsNearest_of_relative h hshort hrelative
          (hnearest _ _ (names_settingsAtRoot h hrelative))
      refine straight_iff.2 ⟨hroot, ?_⟩
      by_contra hstrays
      obtain ⟨front, hastray⟩ := exists_astray hstrays
      exact not_findsNearest_of_astray h hshort hroot hastray
        (hnearest _ _ (names_settingsBeside h hroot hastray))
    · intro hstraight tree place hplace
      exact findsNearest_of_straight hstraight hplace hshort

/-- A tree with a directory. -/
def oneDirectory : FileTree := ⟨.directory [("a", .directory [])], []⟩

/-- An absolute path without dots. -/
theorem nearestLaws_absolute : (∃ tree place, FileTree.Names tree "/a" place) ∧
    (join "/a" fileName).utf8ByteSize ≤ maxPath ∧ NearestLaws "/a" := by
  have hnames : oneDirectory.Names "/a" ["a"] := ⟨by decide +kernel, by decide +kernel⟩
  have hshort : (join "/a" fileName).utf8ByteSize ≤ maxPath := by decide +kernel
  exact ⟨⟨_, _, hnames⟩, hshort, nearestLaws ⟨_, _, hnames⟩ hshort⟩

/-- A tree with settings in a directory below the root, and none at the root. -/
def settingsBelow : FileTree := ⟨.directory [("a", .directory [(fileName, .file [])])], []⟩

/-- The path names the root, which has no settings; those of the directory that it leaves again are
found. -/
theorem settingsBelow_found : settingsBelow.Names "a/.." [] ∧
    ¬ FindsNearest settingsBelow "a/.." [] := by
  refine ⟨⟨by decide +kernel, by decide +kernel⟩, fun hnearest => ?_⟩
  have hfound : discover settingsBelow "a/.." = some "a/ember.toml" := by decide +kernel
  obtain ⟨nearest, habove, ⟨content, hcontent⟩, -⟩ := hnearest.found hfound
  rw [List.prefix_nil.1 habove] at hcontent
  simp [settingsBelow, Entries.lookup?, fileName] at hcontent

end Settings

end ScriptValues
