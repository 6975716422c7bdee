import ScriptValues.Proofs.FilePlaces
import ScriptValues.Proofs.PathParents

/-!
# The places that a path passes

A path leads from the root or from the current directory to a place, one step for each of its
components that is not empty and not a dot; two dots lead to the place above. A textual parent leads
to a place that the path itself comes by, which need not be above the one that it leads to.

* `Path.placeFrom`: where a path leads, by its parts alone.
* `FileTree.Names`: a path leads to a directory of a tree. Then it leads where its parts say
  (`Names.eq_placeFrom`), and so does each of its fronts (`Names.walk_front`).
* `FileTree.isFile_join_iff`: what a name below such a path finds.
-/

namespace ScriptValues

namespace Path

/-- The place that one part of a path leads to. -/
def follow (place : List String) (part : String) : List String :=
  if part = "/" then []
  else if part = "." then place
  else if part = ".." then place.dropLast
  else place ++ [part]

/-- The place that a path leads to from a directory, if all of its parts are there. -/
def placeFrom (current : List String) (path : String) : List String :=
  (parts path).foldl follow current

/-- Whether a component of a path is not a step to another place. -/
def Rests (component : String) : Prop := component = "" ∨ component = "."

instance (component : String) : Decidable (Rests component) :=
  inferInstanceAs (Decidable (_ ∨ _))

/-- The components of a path that are steps. -/
def steps (path : String) : List String := (components path).filter fun component => ¬ Rests component

variable {path parent : String} {current : List String}

theorem rests_ofList (component : List Char) :
    Rests (.ofList component) ↔ isEmptyComponent component = true := by
  have hdot : String.ofList component = "." ↔ component = ['.'] :=
    ⟨fun h => String.ofList_injective h, fun h => h ▸ rfl⟩
  simp [Rests, isEmptyComponent, hdot]

theorem steps_eq (path : String) : steps path = (names path.toList).map String.ofList := by
  rw [steps, components, names, List.filter_map]
  congr 2
  funext component
  simp [rests_ofList]

theorem parts_eq_append (path : String) :
    parts path = (lead path.toList).map String.ofList ++ steps path := by
  rw [parts, List.map_append, steps_eq]

theorem ne_of_mem_steps {component : String} (h : component ∈ steps path) :
    component ≠ "/" ∧ component ≠ "" ∧ component ≠ "." := by
  have hrests := (List.mem_filter.1 h).2
  rw [steps_eq] at h
  obtain ⟨name, hname, rfl⟩ := List.mem_map.1 h
  refine ⟨fun hroot => ?_, ?_⟩
  · exact (not_headed_of_mem_names hname).1 (String.ofList_injective hroot)
  · simpa [Rests] using hrests

/-- The steps are what follows the root or the dot. -/
theorem dropWhile_parts (path : String) :
    (parts path).dropWhile (fun part => part = "/" ∨ part = ".") = steps path := by
  rw [parts_eq_append, List.dropWhile_append_of_pos, List.dropWhile_eq_self_iff.2]
  · intro hpos
    obtain ⟨hroot, -, hdot⟩ := ne_of_mem_steps (List.getElem_mem hpos)
    simpa using ⟨hroot, hdot⟩
  · intro part hpart
    obtain ⟨component, hcomponent, rfl⟩ := List.mem_map.1 hpart
    rcases mem_lead hcomponent with rfl | rfl <;> decide

theorem IsParent.steps_isPrefix (h : IsParent path parent) : steps parent <+: steps path := by
  obtain ⟨last, -, hparts⟩ := h.parts
  rw [← dropWhile_parts, ← dropWhile_parts, hparts, List.dropWhile_append]
  split
  · next hnone =>
    rw [List.isEmpty_iff.1 hnone]
    exact List.nil_prefix
  · exact List.prefix_append _ _

/-- A path that starts another one, from the root or from the same directory. -/
structure IsFront (front path : String) : Prop where
  text : front.toList <+: path.toList
  steps : Path.steps front <+: Path.steps path
  isAbsolute_eq : isAbsolute front = isAbsolute path

theorem IsFront.refl (path : String) : IsFront path path :=
  ⟨List.prefix_rfl, List.prefix_rfl, rfl⟩

theorem IsFront.trans {front : String} (h : IsFront front parent) (hpath : IsFront parent path) :
    IsFront front path :=
  ⟨h.text.trans hpath.text, h.steps.trans hpath.steps, h.isAbsolute_eq.trans hpath.isAbsolute_eq⟩

theorem IsParent.isFront (h : IsParent path parent) : IsFront parent path :=
  ⟨h.front, h.steps_isPrefix, (Bool.eq_iff_iff.2 h.isAbsolute_iff).symm⟩

/-- The paths upwards are fronts of the path. -/
theorem Ascends.isFront {paths : List String} {other : String} (h : Ascends path paths)
    (hother : other ∈ paths) : IsFront other path := by
  induction h with
  | top =>
    obtain rfl := List.mem_singleton.1 hother
    exact .refl _
  | step hparent _ ih =>
    rcases List.mem_cons.1 hother with rfl | hother
    · exact .refl _
    · exact (ih hother).trans hparent.isFront

theorem parts_of_isAbsolute (h : isAbsolute path = true) : parts path = "/" :: steps path := by
  have hroot : path.toList.head? = some '/' := by simpa [isAbsolute] using h
  rw [parts_eq_append, lead, if_pos hroot]
  rfl

/-- Every front of the steps from the root is that of a path further up. -/
theorem Ascends.exists_steps_eq {paths : List String} {front : List String}
    (h : Ascends path paths) (hroot : isAbsolute path = true) (hfront : front <+: steps path) :
    ∃ other ∈ paths, steps other = front := by
  induction h with
  | @top path htop =>
    have hparts := htop.parts_eq
    rw [if_pos hroot, parts_of_isAbsolute hroot] at hparts
    have hsteps : steps path = [] := (List.cons_eq_cons.1 hparts).2
    rw [hsteps, List.prefix_nil] at hfront
    exact ⟨path, List.mem_singleton_self path, hsteps.trans hfront.symm⟩
  | @step path parent above hparent _ ih =>
    have hparentRoot := hparent.isAbsolute_iff.1 hroot
    obtain ⟨last, -, hparts⟩ := hparent.parts
    rw [parts_of_isAbsolute hroot, parts_of_isAbsolute hparentRoot] at hparts
    have hsteps : steps path = steps parent ++ [last] := (List.cons_eq_cons.1 hparts).2
    rw [hsteps] at hfront
    rcases List.prefix_concat_iff.1 hfront with rfl | hfront
    · exact ⟨path, List.mem_cons_self, hsteps⟩
    · obtain ⟨other, hother, heq⟩ := ih hparentRoot hfront
      exact ⟨other, List.mem_cons_of_mem _ hother, heq⟩

/-! ## Places -/

/-- The root or the dot in front of a path is where its steps start. -/
theorem placeFrom_eq (current : List String) (path : String) : placeFrom current path =
    (steps path).foldl follow (if isAbsolute path = true then [] else current) := by
  have hlead : ((lead path.toList).map String.ofList).foldl follow current =
      if isAbsolute path = true then [] else current := by
    by_cases hroot : path.toList.head? = some '/'
    · simp [lead, isAbsolute, hroot, follow]
    · have hrelative : isAbsolute path = false := by simpa [isAbsolute] using hroot
      rw [lead, if_neg hroot, hrelative, if_neg Bool.false_ne_true]
      split <;> simp [follow]
  rw [placeFrom, parts_eq_append, List.foldl_append, hlead]

theorem placeFrom_of_isAbsolute (h : isAbsolute path = true) (current : List String) :
    placeFrom current path = (steps path).foldl follow [] := by
  rw [placeFrom_eq, if_pos h]

theorem placeFrom_of_relative (h : isAbsolute path = false) (current : List String) :
    placeFrom current path = (steps path).foldl follow current := by
  rw [placeFrom_eq, h, if_neg Bool.false_ne_true]

theorem IsParent.placeFrom_eq (h : IsParent path parent) (current : List String) :
    ∃ last, last ≠ "/" ∧ placeFrom current path = follow (placeFrom current parent) last := by
  obtain ⟨last, hlast, hparts⟩ := h.parts
  refine ⟨last, hlast, ?_⟩
  rw [placeFrom, placeFrom, hparts, List.foldl_append, List.foldl_cons, List.foldl_nil]

/-- Without two dots, the steps are the names of the places below. -/
theorem foldl_follow_of_not_mem {place components : List String} (hdots : ".." ∉ components)
    (hsteps : ∀ component ∈ components, component ≠ "/" ∧ component ≠ ".") :
    components.foldl follow place = place ++ components := by
  induction components generalizing place with
  | nil => simp
  | cons component rest ih =>
    obtain ⟨hroot, hdot⟩ := hsteps component List.mem_cons_self
    have hup : component ≠ ".." := (List.ne_of_not_mem_cons hdots).symm
    have hnext : follow place component = place ++ [component] := by
      rw [follow, if_neg hroot, if_neg hdot, if_neg hup]
    rw [List.foldl_cons, hnext, ih (List.not_mem_of_not_mem_cons hdots)
      fun c hc => hsteps c (List.mem_cons_of_mem _ hc)]
    simp

/-- What is above a place and not the place itself is above, or at, the place one part before. -/
theorem isPrefix_of_follow {place above : List String} {part : String} (hpart : part ≠ "/")
    (h : above <+: follow place part) (hne : above ≠ follow place part) : above <+: place := by
  rw [follow, if_neg hpart] at h hne
  split at h
  · exact h
  · next hdot =>
    rw [if_neg hdot] at hne
    split at h
    · exact h.trans (List.dropLast_prefix place)
    · next hup =>
      rw [if_neg hup] at hne
      exact (List.prefix_concat_iff.1 h).resolve_left hne

/-! ## A name below a path -/

theorem components_of_name {name : String} (hname : '/' ∉ name.toList) :
    components name = [name] := by
  rw [components, splitSlashes_of_not_mem hname, List.map_singleton, String.ofList_toList]

/-- A name that is joined to a path is the component behind its steps. -/
theorem components_join {name : String} (path : String) (hname : '/' ∉ name.toList) :
    ∃ before, components (join path name) = before ++ [name] ∧
      before.filter (fun component => ¬ Rests component) = steps path := by
  have hlast : (splitSlashes name.toList).map String.ofList = [name] := components_of_name hname
  rw [join]
  split
  · next hnone =>
    obtain rfl := String.toList_eq_nil_iff.1 (List.getLast?_eq_none_iff.1 hnone)
    exact ⟨[], components_of_name hname, rfl⟩
  · next hslash =>
    obtain ⟨front, hfront⟩ := List.getLast?_eq_some_iff.1 hslash
    refine ⟨(splitSlashes front).map String.ofList, ?_, ?_⟩
    · have htext : (path ++ name).toList = front ++ '/' :: name.toList := by simp [hfront]
      rw [components, htext, splitSlashes_append, List.map_append, hlast]
    · rw [steps, components, hfront, splitSlashes_append, List.map_append, List.filter_append]
      simp [splitSlashes, Rests]
  · refine ⟨components path, ?_, rfl⟩
    have htext : (path ++ "/" ++ name).toList = path.toList ++ '/' :: name.toList := by simp
    rw [components, htext, splitSlashes_append, List.map_append, hlast]
    rfl

theorem isPrefix_join (path name : String) : path.toList <+: (join path name).toList := by
  rw [join]
  split
  · next hnone =>
    rw [List.getLast?_eq_none_iff.1 hnone]
    exact List.nil_prefix
  · simp
  · simp

theorem isAbsolute_join {name : String} (path : String) (hname : '/' ∉ name.toList) :
    isAbsolute (join path name) = isAbsolute path := by
  obtain ⟨more, hmore⟩ := isPrefix_join path name
  rw [isAbsolute, isAbsolute, ← hmore]
  cases hpath : path.toList with
  | nil =>
    obtain rfl := String.toList_eq_nil_iff.1 hpath
    have hhead : name.toList.head? ≠ some '/' := fun hhead => hname (List.mem_of_head? hhead)
    obtain rfl : more = name.toList := by simpa [join] using hmore
    simpa using hhead
  | cons c rest => rfl

theorem mem_join {name : String} {c : Char} (h : c ∈ (join path name).toList) :
    c ∈ path.toList ∨ c = '/' ∨ c ∈ name.toList := by
  rw [join] at h
  split at h
  · exact .inr (.inr h)
  · rw [String.toList_append, List.mem_append] at h
    exact h.imp_right .inr
  · simpa [or_assoc] using h

/-- At most a slash is put between the two. -/
theorem utf8ByteSize_join (path name : String) :
    path.utf8ByteSize + name.utf8ByteSize ≤ (join path name).utf8ByteSize ∧
      (join path name).utf8ByteSize ≤ path.utf8ByteSize + 1 + name.utf8ByteSize := by
  rw [join]
  split
  · next hnone =>
    obtain rfl := String.toList_eq_nil_iff.1 (List.getLast?_eq_none_iff.1 hnone)
    simp
  · simp only [String.utf8ByteSize_append]
    omega
  · have hslash : "/".utf8ByteSize = 1 := by decide
    simp only [String.utf8ByteSize_append, hslash]
    omega

/-- From a front of a path, the joined text is no longer. -/
theorem utf8ByteSize_join_le {front : String} (hfront : front.toList <+: path.toList)
    (name : String) : (join front name).utf8ByteSize ≤ (join path name).utf8ByteSize := by
  obtain ⟨more, hmore⟩ := hfront
  have hpath : path = front ++ .ofList more := by
    rw [← String.toList_inj, String.toList_append, String.toList_ofList, hmore]
  rcases Nat.eq_zero_or_pos (String.ofList more).utf8ByteSize with hnone | hsome
  · rw [hpath, String.utf8ByteSize_eq_zero_iff.1 hnone, String.append_empty]
  · have hupper := (utf8ByteSize_join front name).2
    have hlower := (utf8ByteSize_join path name).1
    have hsize := congrArg String.utf8ByteSize hpath
    rw [String.utf8ByteSize_append] at hsize
    omega

end Path

/-! ## Walks -/

namespace FileTree

open ScriptValues.Path

variable {tree : FileTree} {start path : String} {place directory stop : List String}
  {components : List String}

/-- On the way to a directory, components that rest mean nothing. -/
theorem walk_steps_iff (hdirectory : tree.isDirectoryAt directory) :
    tree.walk place (components.filter fun component => ¬ Rests component) = .ok directory ↔
      tree.walk place components = .ok directory :=
  walk_filter_iff (fun _ hrests => of_not_not (of_decide_eq_false hrests)) hdirectory

/-- A walk along steps leads where they lead. -/
theorem eq_foldl_of_walk (hsteps : ∀ component ∈ components, component ≠ "/" ∧ component ≠ "")
    (h : tree.walk place components = .ok stop) : stop = components.foldl follow place := by
  induction components generalizing place with
  | nil => exact (Except.ok.inj h).symm
  | cons component rest ih =>
    obtain ⟨next, hstep, hrest⟩ := walk_cons.1 h
    obtain ⟨hroot, hempty⟩ := hsteps component List.mem_cons_self
    have hnext : next = follow place component := by
      cases stepsTo_of_step hstep with
      | stays _ hdot =>
        obtain rfl := hdot.resolve_left hempty
        rfl
      | up _ hup =>
        obtain rfl := hup
        rfl
      | down _ _ hdot hup => simp [follow, hroot, hdot, hup]
    rw [List.foldl_cons, ← hnext]
    exact ih (fun c hc => hsteps c (List.mem_cons_of_mem _ hc)) hrest

/-- A path names a directory that is there. -/
structure Names (tree : FileTree) (path : String) (place : List String) : Prop where
  resolve_eq : tree.resolve path = .ok place
  directory : tree.isDirectoryAt place

theorem resolve_eq_ok_iff : tree.resolve path = .ok place ↔
    pathError? path = none ∧ tree.walk (tree.start path) (Path.components path) = .ok place := by
  rw [resolve]
  cases pathError? path <;> simp

/-- A path names a directory if its steps lead there. -/
theorem names_iff : tree.Names path place ↔ pathError? path = none ∧
    tree.walk (tree.start path) (steps path) = .ok place ∧ tree.isDirectoryAt place := by
  constructor
  · rintro ⟨hresolve, hdirectory⟩
    obtain ⟨herror, hwalk⟩ := resolve_eq_ok_iff.1 hresolve
    exact ⟨herror, (walk_steps_iff hdirectory).2 hwalk, hdirectory⟩
  · rintro ⟨herror, hwalk, hdirectory⟩
    exact ⟨resolve_eq_ok_iff.2 ⟨herror, (walk_steps_iff hdirectory).1 hwalk⟩, hdirectory⟩

/-- A walk along the steps of a path leads where the path leads. -/
theorem eq_placeFrom_of_walk (h : tree.walk (tree.start path) (steps path) = .ok place) :
    place = placeFrom tree.current path := by
  rw [Path.placeFrom_eq]
  refine eq_foldl_of_walk (fun component hcomponent => ?_) h
  obtain ⟨hroot, hempty, -⟩ := ne_of_mem_steps hcomponent
  exact ⟨hroot, hempty⟩

theorem Names.eq_placeFrom (h : tree.Names path place) : place = placeFrom tree.current path :=
  eq_placeFrom_of_walk (names_iff.1 h).2.1

/-- The steps of a front of a path lead to a directory on the way. -/
theorem Names.walk_front {front : String} (h : tree.Names path place) (hfront : IsFront front path) :
    tree.walk (tree.start front) (steps front) = .ok (placeFrom tree.current front) ∧
      tree.isDirectoryAt (placeFrom tree.current front) := by
  obtain ⟨-, hwalk, hdirectory⟩ := names_iff.1 h
  have hstart : tree.start path = tree.start front := by
    rw [FileTree.start, FileTree.start, hfront.isAbsolute_eq]
  obtain ⟨rest, hrest⟩ := hfront.steps
  rw [← hrest, hstart] at hwalk
  obtain ⟨next, hnext, hmore⟩ := walk_append.1 hwalk
  obtain rfl := eq_placeFrom_of_walk hnext
  exact ⟨hnext, isDirectoryAt_of_walk hmore hdirectory⟩

/-! ## Files below a path -/

def HasFile (tree : FileTree) (place : List String) : Prop :=
  ∃ content, tree.root.find? place = some (.file content)

theorem isFile_iff : tree.isFile path = true ↔ ∃ place, tree.resolve path = .ok place ∧
    tree.HasFile place := by
  rw [isFile, readBytes]
  cases tree.resolve path with
  | error e => simp
  | ok place =>
    simp only [HasFile]
    cases hfound : tree.root.find? place with
    | none => simp [hfound]
    | some node => cases node <;> simp [hfound]

/-- A name that can be that of a file. -/
structure IsName (name : String) : Prop where
  noSlash : '/' ∉ name.toList
  noNul : '\x00' ∉ name.toList
  ne_empty : name ≠ ""
  ne_dot : name ≠ "."
  ne_dots : name ≠ ".."
  short : name.utf8ByteSize ≤ maxName

theorem pathError?_eq_none_iff : pathError? path = none ↔
    '\x00' ∉ path.toList ∧ path ≠ "" ∧ path.utf8ByteSize ≤ maxPath := by
  rw [pathError?]
  split
  · next hnul => simp [hnul]
  · next hnul =>
    split
    · next hempty => simp [hempty]
    · next hempty =>
      split
      · next hlong => simp [Nat.not_le.2 hlong]
      · next hlong => simp [hnul, hempty, Nat.not_lt.1 hlong]

/-- From a front of a usable path a name is usable, if it is from the path. -/
theorem pathError?_join {front name : String} (hname : IsName name)
    (herror : pathError? path = none) (hfront : front.toList <+: path.toList)
    (hshort : (join path name).utf8ByteSize ≤ maxPath) : pathError? (join front name) = none := by
  obtain ⟨hnul, -, -⟩ := pathError?_eq_none_iff.1 herror
  refine pathError?_eq_none_iff.2 ⟨fun hmem => ?_, fun hempty => ?_, ?_⟩
  · rcases mem_join hmem with hmem | hmem | hmem
    · exact hnul (hfront.subset hmem)
    · exact absurd hmem (by decide)
    · exact hname.noNul hmem
  · have hsize := (utf8ByteSize_join front name).1
    rw [hempty, String.utf8ByteSize_empty, Nat.le_zero, Nat.add_eq_zero_iff] at hsize
    exact hname.ne_empty (String.utf8ByteSize_eq_zero_iff.1 hsize.2)
  · exact (utf8ByteSize_join_le hfront name).trans hshort

/-- From a path that leads to a directory, a name leads to what has this name there. -/
theorem resolve_join_iff {name : String} (hname : IsName name)
    (hwalk : tree.walk (tree.start path) (steps path) = .ok directory)
    (hdirectory : tree.isDirectoryAt directory) :
    tree.resolve (join path name) = .ok place ↔ pathError? (join path name) = none ∧
      place = directory ++ [name] ∧ (tree.root.find? place).isSome := by
  obtain ⟨before, hcomponents, hbefore⟩ := components_join path hname.noSlash
  have hstart : tree.start (join path name) = tree.start path := by
    rw [FileTree.start, FileTree.start, isAbsolute_join path hname.noSlash]
  have hthere : tree.walk (tree.start path) before = .ok directory :=
    (walk_steps_iff hdirectory).1 (hbefore.symm ▸ hwalk)
  rw [resolve_eq_ok_iff, hcomponents, hstart, walk_append, and_congr_right_iff]
  intro _
  constructor
  · rintro ⟨next, hnext, hlast⟩
    obtain rfl := Except.ok.inj (hthere.symm.trans hnext)
    obtain ⟨last, hstep, hstop⟩ := walk_cons.1 hlast
    obtain rfl := Except.ok.inj hstop
    cases stepsTo_of_step hstep with
    | stays _ hdot => exact absurd hdot (not_or.2 ⟨hname.ne_empty, hname.ne_dot⟩)
    | up _ hup => exact absurd hup hname.ne_dots
    | down _ _ _ _ _ hfound => exact ⟨rfl, hfound⟩
  · rintro ⟨rfl, hfound⟩
    exact ⟨directory, hthere, walk_cons.2 ⟨_, StepsTo.step (.down hdirectory hname.ne_empty
      hname.ne_dot hname.ne_dots hname.short hfound), rfl⟩⟩

theorem isFile_join_iff {name : String} (hname : IsName name)
    (hwalk : tree.walk (tree.start path) (steps path) = .ok directory)
    (hdirectory : tree.isDirectoryAt directory) :
    tree.isFile (join path name) = true ↔
      pathError? (join path name) = none ∧ tree.HasFile (directory ++ [name]) := by
  rw [isFile_iff]
  simp only [resolve_join_iff hname hwalk hdirectory]
  constructor
  · rintro ⟨_, ⟨herror, rfl, -⟩, hfile⟩
    exact ⟨herror, hfile⟩
  · rintro ⟨herror, content, hfile⟩
    exact ⟨_, ⟨herror, rfl, by simp [hfile]⟩, content, hfile⟩

end FileTree

end ScriptValues
