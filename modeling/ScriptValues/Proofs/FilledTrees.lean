import ScriptValues.Proofs.PassedPlaces

/-!
# Trees with one file

Trees for every path and every place: directories wherever the names of the path may lead, and one
file at a place of choice. Each path that can name a directory at all names one in such a tree, as
long as it does not come by the file.

* `Node.find?_filled`, `Node.eq_of_find?_filled`: what stands in such a tree.
* `FileTree.names_filled`: the path leads to a directory of the tree.
-/

namespace ScriptValues

theorem Entries.lookup_foldr_insert {α : Type} (value : String → α) (names : List String)
    (key : String) :
    Entries.lookup? key (names.foldr (fun name => Entries.insert name (value name)) []) =
      if key ∈ names then some (value key) else none := by
  induction names with
  | nil => rfl
  | cons name names ih =>
    rw [List.foldr_cons, lookup_insert, ih]
    by_cases hkey : key = name
    · simp [hkey]
    · simp [hkey]

namespace Node

/-- Directories at every place that some names make, down to a depth, but for one place of a file. -/
def filled (names file : List String) : Nat → List String → Node
  | 0, place => if place = file then .file [] else .directory []
  | depth + 1, place =>
    if place = file then .file []
    else .directory (names.foldr
      (fun name => Entries.insert name (filled names file depth (place ++ [name]))) [])

variable {names file path place : List String} {depth : Nat}

@[simp]
theorem filled_file (names file : List String) (depth : Nat) :
    filled names file depth file = .file [] := by
  cases depth <;> simp [filled]

theorem isDirectory_filled (h : place ≠ file) : (filled names file depth place).isDirectory := by
  cases depth <;> simp [filled, h, isDirectory]

theorem find?_filled_cons {name : String} (h : place ≠ file) :
    find? (name :: path) (filled names file (depth + 1) place) =
      if name ∈ names then find? path (filled names file depth (place ++ [name])) else none := by
  rw [filled, if_neg h, find?_directory, Entries.lookup_foldr_insert]
  split <;> rfl

/-- The file is nowhere else. -/
theorem eq_of_find?_filled {content : List UInt8}
    (h : find? path (filled names file depth place) = some (.file content)) :
    place ++ path = file := by
  induction path generalizing depth place with
  | nil =>
    rw [find?_nil, Option.some_inj] at h
    by_contra hplace
    rw [List.append_nil] at hplace
    have hdirectory : (filled names file depth place).isDirectory := isDirectory_filled hplace
    rw [h] at hdirectory
    cases hdirectory
  | cons name path ih =>
    by_cases hplace : place = file
    · rw [hplace, filled_file, find?_file] at h
      cases h
    · cases depth with
      | zero => simp [filled, hplace, Entries.lookup?] at h
      | succ depth =>
        rw [find?_filled_cons hplace] at h
        split at h
        · simpa using ih h
        · cases h

/-- Along the names everything is there, up to the file. -/
theorem find?_filled (hnames : ∀ name ∈ path, name ∈ names) (hdepth : path.length ≤ depth)
    (hfile : ∀ front, front <+: path → front ≠ path → place ++ front ≠ file) :
    find? path (filled names file depth place) =
      some (filled names file (depth - path.length) (place ++ path)) := by
  induction path generalizing depth place with
  | nil => simp
  | cons name path ih =>
    obtain ⟨depth, rfl⟩ : ∃ below, depth = below + 1 :=
      Nat.exists_eq_succ_of_ne_zero (Nat.ne_of_gt (Nat.lt_of_lt_of_le (Nat.succ_pos _) hdepth))
    have hplace : place ≠ file := by
      simpa using hfile [] List.nil_prefix (List.cons_ne_nil _ _).symm
    rw [find?_filled_cons hplace, if_pos (hnames name List.mem_cons_self), ih]
    · simp
    · exact fun other hother => hnames other (List.mem_cons_of_mem _ hother)
    · simpa using hdepth
    · intro front hfront hne
      have hcons := hfile (name :: front) (List.cons_prefix_cons.2 ⟨rfl, hfront⟩) (by simpa using hne)
      simpa using hcons

end Node

namespace FileTree

open ScriptValues.Path

/-- A tree of directories with one file. -/
def filled (names file : List String) (depth : Nat) (current : List String) : FileTree :=
  ⟨Node.filled names file depth [], current⟩

variable {names file place current : List String} {depth : Nat}

theorem isDirectoryAt_filled (hnames : ∀ name ∈ place, name ∈ names)
    (hdepth : place.length ≤ depth) (hfile : ¬ file <+: place) :
    (filled names file depth current).isDirectoryAt place := by
  have hfound : Node.find? place (Node.filled names file depth []) = _ :=
    Node.find?_filled hnames hdepth fun front hfront _ heq => hfile (heq ▸ hfront)
  rw [isDirectoryAt, filled, hfound]
  exact Node.isDirectory_filled fun heq => hfile (heq ▸ List.prefix_rfl)

theorem hasFile_filled (hnames : ∀ name ∈ file, name ∈ names) (hdepth : file.length ≤ depth) :
    (filled names file depth current).HasFile file := by
  have hfound : Node.find? file (Node.filled names file depth []) = _ :=
    Node.find?_filled hnames hdepth fun _ _ hne => hne
  exact ⟨[], hfound.trans (by simp)⟩

theorem eq_of_hasFile_filled (h : (filled names file depth current).HasFile place) :
    place = file := by
  obtain ⟨content, hfound⟩ := h
  exact Node.eq_of_find?_filled hfound

/-! ## Walks through directories -/

variable {tree : FileTree} {components : List String}

/-- A walk goes on as long as there are directories. -/
theorem walk_of_directories (hsteps : ∀ component ∈ components,
      (component ≠ "/" ∧ component ≠ "" ∧ component ≠ ".") ∧ component.utf8ByteSize ≤ maxName)
    (hdirectories : ∀ front, front <+: components → tree.isDirectoryAt (front.foldl follow place)) :
    tree.walk place components = .ok (components.foldl follow place) := by
  induction components generalizing place with
  | nil => rfl
  | cons component rest ih =>
    have hplace := hdirectories [] List.nil_prefix
    have hnext : tree.isDirectoryAt (follow place component) :=
      hdirectories [component] (by simp)
    have hstep : tree.StepsTo place component (follow place component) := by
      obtain ⟨⟨hroot, hempty, hdot⟩, hshort⟩ := hsteps component List.mem_cons_self
      rw [follow, if_neg hroot, if_neg hdot] at hnext ⊢
      split
      · next hup => exact .up hplace hup
      · next hup =>
        rw [if_neg hup, isDirectoryAt_iff] at hnext
        exact .down hplace hempty hdot hup hshort (isSome_find_iff.2 (by simp [hnext]))
    refine walk_cons.2 ⟨_, hstep.step, ih ?_ fun front hfront => ?_⟩
    · exact fun c hc => hsteps c (List.mem_cons_of_mem _ hc)
    · exact hdirectories (component :: front) (List.cons_prefix_cons.2 ⟨rfl, hfront⟩)

/-- A walk only takes names that are not too long. -/
theorem utf8ByteSize_le_of_walk {stop : List String} (h : tree.walk place components = .ok stop) :
    ∀ component ∈ components, component.utf8ByteSize ≤ maxName := by
  induction components generalizing place with
  | nil => simp
  | cons component rest ih =>
    obtain ⟨next, hstep, hrest⟩ := walk_cons.1 h
    refine List.forall_mem_cons.2 ⟨?_, ih hrest⟩
    cases stepsTo_of_step hstep with
    | stays _ hdot => rcases hdot with rfl | rfl <;> decide
    | up _ hup =>
      subst hup
      decide
    | down _ _ _ _ hshort => exact hshort

/-- A step makes no other name, and a place at most one name longer. -/
theorem follow_subset (place : List String) (part : String) :
    follow place part ⊆ place ++ [part] ∧ (follow place part).length ≤ place.length + 1 := by
  rw [follow]
  split
  · simp
  · split
    · simp
    · split
      · refine ⟨fun name hname => ?_, ?_⟩
        · exact List.mem_append_left _ ((List.dropLast_prefix place).subset hname)
        · rw [List.length_dropLast]
          omega
      · simp

theorem mem_foldl_follow {name : String} (h : name ∈ components.foldl follow place) :
    name ∈ place ++ components := by
  induction components generalizing place with
  | nil => simpa using h
  | cons component rest ih =>
    rcases List.mem_append.1 (ih h) with hmem | hmem
    · have hname := (follow_subset place component).1 hmem
      simp only [List.mem_append, List.mem_singleton] at hname
      simp only [List.mem_append, List.mem_cons]
      exact hname.imp_right .inl
    · simp [hmem]

theorem length_foldl_follow_le (components place : List String) :
    (components.foldl follow place).length ≤ place.length + components.length := by
  induction components generalizing place with
  | nil => simp
  | cons component rest ih =>
    have hstep := (follow_subset place component).2
    have hrest := ih (follow place component)
    rw [List.foldl_cons, List.length_cons]
    omega

/-- A path that can name a directory at all names one in a filled tree, if it does not come by the
file. -/
theorem names_filled {path : String} (herror : pathError? path = none)
    (hshort : ∀ component ∈ steps path, component.utf8ByteSize ≤ maxName)
    (hnames : ∀ name ∈ current ++ steps path, name ∈ names)
    (hdepth : current.length + (steps path).length ≤ depth)
    (hfile : ∀ front, front <+: steps path →
      ¬ file <+: front.foldl follow (if isAbsolute path = true then [] else current)) :
    (filled names file depth current).Names path (placeFrom current path) := by
  have horigin : (if isAbsolute path = true then [] else current) <+: current := by
    split
    · exact List.nil_prefix
    · exact List.prefix_rfl
  have hstart : (filled names file depth current).start path =
      if isAbsolute path = true then [] else current := rfl
  rw [placeFrom_eq]
  generalize (if isAbsolute path = true then [] else current) = origin at hfile horigin hstart ⊢
  have hdirectories : ∀ front, front <+: steps path →
      (filled names file depth current).isDirectoryAt (front.foldl follow origin) := by
    intro front hfront
    refine isDirectoryAt_filled (fun name hname => hnames name ?_) ?_ (hfile front hfront)
    · rcases List.mem_append.1 (mem_foldl_follow hname) with hmem | hmem
      · exact List.mem_append_left _ (horigin.subset hmem)
      · exact List.mem_append_right _ (hfront.subset hmem)
    · have hlength := length_foldl_follow_le front origin
      have horiginLength := horigin.length_le
      have hfrontLength := hfront.length_le
      omega
  refine names_iff.2 ⟨herror, ?_, hdirectories _ List.prefix_rfl⟩
  rw [hstart]
  exact walk_of_directories (fun c hc => ⟨ne_of_mem_steps hc, hshort c hc⟩) hdirectories

end FileTree

end ScriptValues
