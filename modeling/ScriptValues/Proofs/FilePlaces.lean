import ScriptValues.Files.Tree

/-!
# What writing a file changes

A file that is written to stands where its path leads, with the content that was given; whatever
stands anywhere else stays as it was.

* `Node.faceAt`: what stands at a place, without what is below it.
* `FileTree.of_target`: what holds of a path that can be written to.
* `FileTree.Extends`: a tree in which every walk of another one goes as there.
* `FileTree.written_of_writeText`: the laws of `FileTree.Written` hold after a write.
-/

namespace ScriptValues

/-- The text of the bytes of a text is the text. -/
theorem utf8Text_utf8Bytes (s : String) : utf8Text? (utf8Bytes s) = some s :=
  dif_pos s.isValidUTF8

/-! ## Paths -/

namespace Path

/-- A text that does not end in a slash ends in a component. -/
theorem splitSlashes_eq_append {cs : List Char} (hne : cs ≠ []) (hlast : cs.getLast? ≠ some '/') :
    ∃ before last, splitSlashes cs = before ++ [last] ∧ last ≠ [] := by
  induction cs with
  | nil => exact absurd rfl hne
  | cons c rest ih =>
    by_cases hrest : rest = []
    · subst hrest
      have hc : c ≠ '/' := by simpa using hlast
      exact ⟨[], [c], by simp [splitSlashes, hc], by simp⟩
    · have hlast' : rest.getLast? ≠ some '/' := by
        rwa [List.getLast?_cons_of_ne_nil hrest] at hlast
      obtain ⟨before, last, heq, hl⟩ := ih hrest hlast'
      rw [splitSlashes, heq]
      split
      · exact ⟨[] :: before, last, rfl, hl⟩
      · cases before with
        | nil => exact ⟨[], c :: last, rfl, by simp⟩
        | cons first others => exact ⟨(c :: first) :: others, last, rfl, hl⟩

/-- The last component of a path that does not end in a slash is not empty. -/
theorem components_eq_append {path : String} (hne : path ≠ "")
    (hlast : path.toList.getLast? ≠ some '/') :
    ∃ before last, components path = before ++ [last] ∧ last ≠ "" := by
  have hchars : path.toList ≠ [] := by simpa using hne
  obtain ⟨before, last, heq, hl⟩ := splitSlashes_eq_append hchars hlast
  refine ⟨before.map String.ofList, String.ofList last, ?_, ?_⟩
  · rw [components, heq, List.map_append]
    rfl
  · simpa using hl

end Path

/-! ## Nodes -/

/-- What stands at a place. -/
inductive Face where
  | file (content : List UInt8)
  | directory
  deriving DecidableEq

namespace Node

/-- What a node is, without what is below it. -/
def face : Node → Face
  | .file content => .file content
  | .directory _ => .directory

/-- What stands at a place below a node, if anything does. -/
def faceAt (root : Node) (place : List String) : Option Face := (root.find? place).map face

variable {root new : Node} {entries : List (String × Node)} {name : String} {names : List String}

theorem isDirectory_iff {node : Node} : node.isDirectory = true ↔ node.face = .directory := by
  cases node <;> simp [isDirectory, face]

@[simp]
theorem find?_nil (node : Node) : find? [] node = some node := by
  cases node <;> rfl

@[simp]
theorem find?_file (content : List UInt8) : find? (name :: names) (.file content) = none := rfl

@[simp]
theorem find?_directory : find? (name :: names) (.directory entries) =
    (Entries.lookup? name entries).bind (find? names) := by
  rw [find?]
  cases Entries.lookup? name entries <;> rfl

theorem place_cons_directory : place new (name :: names) (.directory entries) =
    .directory (Entries.insert name
      (place new names ((Entries.lookup? name entries).getD (.directory []))) entries) := rfl

/-- What was placed is found there. -/
theorem find?_place (new : Node) (names : List String) (root : Node) :
    find? names (place new names root) = some new := by
  induction names generalizing root with
  | nil => cases root <;> rfl
  | cons name names ih =>
    cases root with
    | file content => simp [place, Entries.lookup?, ih]
    | directory entries =>
      rw [place_cons_directory, find?_directory, Entries.lookup_insert, if_pos rfl]
      exact ih _

/-- Placing a file in a directory, where no directory stands, changes no other place. -/
theorem faceAt_place {directory : List String} {last : String} {content : List UInt8}
    (hdirectory : root.faceAt directory = some .directory)
    (hlast : root.faceAt (directory ++ [last]) ≠ some .directory) {other : List String}
    (hother : other ≠ directory ++ [last]) :
    (place (.file content) (directory ++ [last]) root).faceAt other = root.faceAt other := by
  induction directory generalizing root other with
  | nil =>
    cases root with
    | file c => simp [faceAt, face] at hdirectory
    | directory entries =>
      rw [List.nil_append] at hlast hother ⊢
      rw [place_cons_directory]
      cases other with
      | nil => simp [faceAt, face]
      | cons x xs =>
        simp only [faceAt, find?_directory, Entries.lookup_insert] at hlast ⊢
        by_cases hx : x = last
        · subst hx
          -- nothing stands below a file, nor where there is none
          obtain ⟨y, ys, rfl⟩ : ∃ y ys, xs = y :: ys := by
            cases xs with
            | nil => exact absurd rfl hother
            | cons y ys => exact ⟨y, ys, rfl⟩
          cases hfound : Entries.lookup? x entries with
          | none => simp [place]
          | some node =>
            cases node with
            | file c => simp [place]
            | directory below => simp [hfound, face] at hlast
        · rw [if_neg hx]
  | cons d ds ih =>
    cases root with
    | file c => simp [faceAt] at hdirectory
    | directory entries =>
      rw [List.cons_append] at hlast hother ⊢
      rw [place_cons_directory]
      cases other with
      | nil => simp [faceAt, face]
      | cons x xs =>
        simp only [faceAt, find?_directory, Entries.lookup_insert] at hdirectory hlast ⊢
        by_cases hx : x = d
        · subst hx
          cases hfound : Entries.lookup? x entries with
          | none => simp [hfound] at hdirectory
          | some node =>
            simp only [hfound, Option.bind_some] at hdirectory hlast
            rw [if_pos rfl]
            exact ih hdirectory hlast (by simpa using hother)
        · rw [if_neg hx]

end Node

/-! ## Trees -/

namespace FileTree

variable {tree tree' : FileTree} {place directory : List String} {path text last : String}
  {components : List String}

/-- What stands at a place of a tree, if anything does. -/
def faceAt (tree : FileTree) (place : List String) : Option Face := tree.root.faceAt place

theorem isDirectoryAt_iff :
    tree.isDirectoryAt place = true ↔ tree.faceAt place = some .directory := by
  unfold isDirectoryAt faceAt Node.faceAt
  cases tree.root.find? place with
  | none => simp
  | some node => simpa using Node.isDirectory_iff

theorem isSome_find_iff : (tree.root.find? place).isSome = true ↔ (tree.faceAt place).isSome := by
  unfold faceAt Node.faceAt
  cases tree.root.find? place <;> simp

/-- A step is made from a directory, to a place where something stands. -/
inductive StepsTo (tree : FileTree) (place : List String) (component : String) :
    List String → Prop
  | stays : tree.isDirectoryAt place → component = "" ∨ component = "." →
      StepsTo tree place component place
  | up : tree.isDirectoryAt place → component = ".." → StepsTo tree place component place.dropLast
  | down : tree.isDirectoryAt place → component ≠ "" → component ≠ "." → component ≠ ".." →
      component.utf8ByteSize ≤ maxName → (tree.root.find? (place ++ [component])).isSome →
      StepsTo tree place component (place ++ [component])

theorem stepsTo_of_step {component : String} {next : List String}
    (h : tree.step place component = .ok next) : tree.StepsTo place component next := by
  unfold step at h
  split at h
  · cases h
  · next hplace =>
    have hplace : tree.isDirectoryAt place = true := by simpa using hplace
    split at h
    · next hdot =>
      obtain rfl := Except.ok.inj h
      exact .stays hplace (by simpa using hdot)
    · next hdot =>
      obtain ⟨hempty, hdot⟩ : component ≠ "" ∧ component ≠ "." := by simpa using hdot
      split at h
      · next hup =>
        obtain rfl := Except.ok.inj h
        exact .up hplace hup
      · next hup =>
        split at h
        · cases h
        · next hlong =>
          split at h
          · next hfound =>
            obtain rfl := Except.ok.inj h
            exact .down hplace hempty hdot hup (by omega) hfound
          · cases h

theorem StepsTo.step {component : String} {next : List String}
    (h : tree.StepsTo place component next) : tree.step place component = .ok next := by
  cases h with
  | stays hplace hdot => rcases hdot with rfl | rfl <;> simp [FileTree.step, hplace]
  | up hplace hup =>
    subst hup
    simp [FileTree.step, hplace]
  | down hplace hempty hdot hup hshort hfound =>
    simp [FileTree.step, hplace, hempty, hdot, hup, Nat.not_lt.2 hshort, hfound]

theorem StepsTo.isDirectoryAt {component : String} {next : List String}
    (h : tree.StepsTo place component next) : tree.isDirectoryAt place := by
  cases h <;> assumption

theorem walk_cons {component : String} {rest : List String} {stop : List String} :
    tree.walk place (component :: rest) = .ok stop ↔
      ∃ next, tree.step place component = .ok next ∧ tree.walk next rest = .ok stop := by
  rw [walk]
  cases tree.step place component <;> simp

theorem walk_append {more : List String} {stop : List String} :
    tree.walk place (components ++ more) = .ok stop ↔
      ∃ next, tree.walk place components = .ok next ∧ tree.walk next more = .ok stop := by
  induction components generalizing place with
  | nil => simp [walk]
  | cons component rest ih =>
    rw [List.cons_append, walk_cons]
    simp only [ih, walk_cons]
    constructor
    · rintro ⟨a, ha, b, hb, hstop⟩
      exact ⟨b, ⟨a, ha, hb⟩, hstop⟩
    · rintro ⟨b, ⟨a, ha, hb⟩, hstop⟩
      exact ⟨a, ha, b, hb, hstop⟩

/-- A walk that ends in a directory only passes directories. -/
theorem isDirectoryAt_of_walk (h : tree.walk place components = .ok directory)
    (hdirectory : tree.isDirectoryAt directory) : tree.isDirectoryAt place := by
  cases components with
  | nil =>
    obtain rfl := Except.ok.inj h
    exact hdirectory
  | cons component rest =>
    obtain ⟨next, hstep, -⟩ := walk_cons.1 h
    exact (stepsTo_of_step hstep).isDirectoryAt

/-- On the way to a directory, empty components and dots mean nothing, whichever are left out. -/
theorem walk_filter_iff {keeps : String → Bool}
    (hkeeps : ∀ component, keeps component = false → component = "" ∨ component = ".")
    (hdirectory : tree.isDirectoryAt directory) :
    tree.walk place (components.filter keeps) = .ok directory ↔
      tree.walk place components = .ok directory := by
  induction components generalizing place with
  | nil => rfl
  | cons component rest ih =>
    cases hkept : keeps component with
    | true =>
      rw [List.filter_cons_of_pos hkept, walk_cons, walk_cons]
      simp only [ih]
    | false =>
      have hrests := hkeeps component hkept
      rw [List.filter_cons_of_neg (by simp [hkept]), ih, walk_cons]
      constructor
      · intro hrest
        exact ⟨place, (StepsTo.stays (isDirectoryAt_of_walk hrest hdirectory) hrests).step, hrest⟩
      · rintro ⟨next, hstep, hrest⟩
        cases stepsTo_of_step hstep with
        | stays => exact hrest
        | up _ hup => simp [hup] at hrests
        | down _ hempty hdot => exact absurd hrests (not_or.2 ⟨hempty, hdot⟩)

/-- Every directory of one tree is one of the other, and where something stands something does. -/
structure Extends (tree tree' : FileTree) : Prop where
  directory : ∀ place, tree.isDirectoryAt place → tree'.isDirectoryAt place
  found : ∀ place, (tree.root.find? place).isSome → (tree'.root.find? place).isSome

theorem Extends.step {component : String} {next : List String} (h : Extends tree tree')
    (hstep : tree.step place component = .ok next) : tree'.step place component = .ok next := by
  refine StepsTo.step ?_
  cases stepsTo_of_step hstep with
  | stays hplace hdot => exact .stays (h.directory _ hplace) hdot
  | up hplace hup => exact .up (h.directory _ hplace) hup
  | down hplace hempty hdot hup hshort hfound =>
    exact .down (h.directory _ hplace) hempty hdot hup hshort (h.found _ hfound)

theorem Extends.walk {stop : List String} (h : Extends tree tree')
    (hwalk : tree.walk place components = .ok stop) : tree'.walk place components = .ok stop := by
  induction components generalizing place with
  | nil => exact hwalk
  | cons component rest ih =>
    obtain ⟨next, hstep, hrest⟩ := walk_cons.1 hwalk
    exact walk_cons.2 ⟨next, h.step hstep, ih hrest⟩

/-! ## Writing -/

/-- What holds of a path that can be written to: it leads to a directory, and its last component
names no directory there. -/
structure Writable (tree : FileTree) (path : String) (directory : List String) (last : String) :
    Prop where
  usable : pathError? path = none
  components : ∃ before, Path.components path = before ++ [last] ∧
    tree.walk (tree.start path) before = .ok directory
  named : last ≠ "" ∧ last ≠ "." ∧ last ≠ ".."
  short : last.utf8ByteSize ≤ maxName
  parent : tree.isDirectoryAt directory
  free : tree.faceAt (directory ++ [last]) ≠ some .directory

/-- The place that is written to is below the directory that the path leads to. -/
theorem of_target (h : tree.target path = .ok place) :
    ∃ directory last, place = directory ++ [last] ∧ tree.Writable path directory last := by
  unfold target at h
  cases herror : pathError? path with
  | some e => simp [herror] at h
  | none =>
    simp only [herror] at h
    split at h
    · cases h
    · next last hlast =>
      split at h
      · cases h
      · next directory hwalk =>
        split at h
        · cases h
        · next hdirectory =>
          split at h
          · cases h
          · next hnames =>
            split at h
            · cases h
            · next hlong =>
              split at h
              · cases h
              · next hfree =>
                obtain rfl := Except.ok.inj h
                simp only [Bool.or_eq_true, decide_eq_true_eq, not_or] at hnames
                obtain ⟨⟨hdot, hup⟩, hslash⟩ := hnames
                have hdirectory : tree.isDirectoryAt directory = true := by simpa using hdirectory
                have hpath : path ≠ "" := by
                  rintro rfl
                  simp [pathError?] at herror
                obtain ⟨before, last', heq, hne⟩ := Path.components_eq_append hpath hslash
                have hfilter : (Path.components path).filter (· ≠ "") =
                    before.filter (· ≠ "") ++ [last'] := by
                  rw [heq, List.filter_append]
                  simp [hne]
                rw [hfilter] at hlast hwalk
                obtain rfl : last' = last := by simpa using hlast
                rw [List.dropLast_concat] at hwalk
                have hthere := (walk_filter_iff (fun _ hc => .inl (by simpa using hc))
                  hdirectory).1 hwalk
                exact ⟨directory, last', rfl, herror, ⟨before, heq, hthere⟩, ⟨hne, hdot, hup⟩,
                  by omega, hdirectory, fun hface => hfree (isDirectoryAt_iff.2 hface)⟩

def withFile (tree : FileTree) (place : List String) (content : List UInt8) : FileTree :=
  { tree with root := Node.place (.file content) place tree.root }

theorem find?_withFile (tree : FileTree) (place : List String) (content : List UInt8) :
    (tree.withFile place content).root.find? place = some (.file content) :=
  Node.find?_place _ _ _

namespace Writable

variable (h : tree.Writable path directory last) (content : List UInt8)
include h

theorem faceAt_withFile {other : List String} (hother : other ≠ directory ++ [last]) :
    (tree.withFile (directory ++ [last]) content).faceAt other = tree.faceAt other :=
  Node.faceAt_place (isDirectoryAt_iff.1 h.parent) h.free hother

/-- Every walk goes as before. -/
theorem extends_withFile : Extends tree (tree.withFile (directory ++ [last]) content) where
  directory := by
    intro other hother
    rw [isDirectoryAt_iff] at hother ⊢
    rw [h.faceAt_withFile content, hother]
    rintro rfl
    exact h.free hother
  found := by
    intro other hfound
    by_cases hother : other = directory ++ [last]
    · rw [hother, find?_withFile]
      rfl
    · rw [isSome_find_iff] at hfound ⊢
      rwa [h.faceAt_withFile content hother]

/-- The path leads to the file. -/
theorem resolve_withFile :
    (tree.withFile (directory ++ [last]) content).resolve path = .ok (directory ++ [last]) := by
  have hextends := h.extends_withFile content
  obtain ⟨before, heq, hwalk⟩ := h.components
  obtain ⟨hempty, hdot, hup⟩ := h.named
  have hfound : ((tree.withFile (directory ++ [last]) content).root.find?
      (directory ++ [last])).isSome := by
    rw [find?_withFile]
    rfl
  have hlast : (tree.withFile (directory ++ [last]) content).StepsTo directory last _ :=
    .down (hextends.directory _ h.parent) hempty hdot hup h.short hfound
  rw [resolve, h.usable]
  show (tree.withFile (directory ++ [last]) content).walk (tree.start path) _ = _
  rw [heq, walk_append]
  exact ⟨directory, hextends.walk hwalk, walk_cons.2 ⟨_, hlast.step, rfl⟩⟩

end Writable

/-- What holds after a text was written to a path. -/
structure Written (tree tree' : FileTree) (path text : String) (place : List String) : Prop where
  /-- The path leads to the place, and to no other if it led anywhere before. -/
  leads : tree'.resolve path = .ok place ∧ ∀ earlier, tree.resolve path = .ok earlier →
    earlier = place
  /-- The file there has the text as its content. -/
  content : tree'.faceAt place = some (.file (utf8Bytes text))
  /-- Every other place is as it was, and so is the current directory. -/
  rest : (∀ other, other ≠ place → tree'.faceAt other = tree.faceAt other) ∧
    tree'.current = tree.current
  /-- Reading the path gives the text. -/
  reads : tree'.readText path = .ok text

theorem Extends.resolve (h : Extends tree tree') (hcurrent : tree'.current = tree.current)
    (hresolve : tree.resolve path = .ok place) : tree'.resolve path = .ok place := by
  unfold FileTree.resolve at hresolve ⊢
  have hstart : tree'.start path = tree.start path := by rw [start, start, hcurrent]
  cases herror : pathError? path with
  | some e => simp [herror] at hresolve
  | none =>
    simp only [herror] at hresolve ⊢
    rw [hstart]
    exact h.walk hresolve

/-- A write either fails or changes one file, which then is read back. -/
theorem written_of_writeText (h : tree.writeText path text = .ok tree') :
    ∃ place, tree.target path = .ok place ∧ Written tree tree' path text place := by
  unfold writeText at h
  cases htarget : tree.target path with
  | error e => simp [htarget] at h
  | ok place =>
    simp only [htarget] at h
    obtain rfl : tree.withFile place (utf8Bytes text) = tree' := Except.ok.inj h
    obtain ⟨directory, last, rfl, hwritable⟩ := of_target htarget
    have hresolve := hwritable.resolve_withFile (utf8Bytes text)
    have hfound := find?_withFile tree (directory ++ [last]) (utf8Bytes text)
    refine ⟨_, rfl, ⟨hresolve, fun earlier hearlier => ?_⟩, ?_, ⟨?_, rfl⟩, ?_⟩
    · have hlater := (hwritable.extends_withFile (utf8Bytes text)).resolve rfl hearlier
      exact Except.ok.inj (hlater.symm.trans hresolve)
    · rw [faceAt, Node.faceAt, hfound]
      rfl
    · exact fun other hother => hwritable.faceAt_withFile (utf8Bytes text) hother
    · simp only [readText, readBytes, hresolve, hfound, utf8Text_utf8Bytes]

end FileTree

end ScriptValues
