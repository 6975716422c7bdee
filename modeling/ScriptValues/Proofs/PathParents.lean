import Mathlib.Data.List.Basic
import Mathlib.Data.List.TakeWhile
import ScriptValues.Files.Path

/-!
# Parents of paths

A path has parts: the root or a dot in front, and then names. Slashes that are doubled or stand at
the end mean nothing, and so do dots behind the front; two dots are a name like any other. The
parent that is cut out of the text is the one that the parts give, however the path is spelled.

* `Path.trims_trimBody`: trimming drops what means nothing from the end of a text, and no name.
* `Path.parent?_eq_some_iff`, `Path.parent?_eq_none_iff`: the parent has all parts but the last, and
  its text is the shortest front of the path with these parts; without names there is none.
* `Path.Ascends`: the way up, one parent after the other. There is one from every path, it is as
  long as the path has parts, and it ends at the root or at the empty path.
-/

namespace ScriptValues

namespace Path

/-! ## Parts -/

/-- What a path starts with besides a name: the root, or a dot. -/
def lead (cs : List Char) : List (List Char) :=
  if cs.head? = some '/' then [['/']]
  else if cs.takeWhile (· ≠ '/') = ['.'] then [['.']]
  else []

/-- The components that mean something anywhere in a path; two dots are one. -/
def names (cs : List Char) : List (List Char) :=
  (splitSlashes cs).filter fun component => !isEmptyComponent component

/-- The parts of a path: the root or a dot in front, then the names. -/
def parts (path : String) : List String :=
  (lead path.toList ++ names path.toList).map String.ofList

variable {cs before name : List Char}

theorem splitSlashes_ne_nil (cs : List Char) : splitSlashes cs ≠ [] := by
  cases cs with
  | nil => simp [splitSlashes]
  | cons c cs =>
    rw [splitSlashes]
    split
    · simp
    · split <;> simp

theorem splitSlashes_append (before after : List Char) :
    splitSlashes (before ++ '/' :: after) = splitSlashes before ++ splitSlashes after := by
  induction before with
  | nil => simp [splitSlashes]
  | cons c before ih =>
    rw [List.cons_append, splitSlashes, splitSlashes, ih]
    split
    · rfl
    · cases hfirst : splitSlashes before with
      | nil => exact absurd hfirst (splitSlashes_ne_nil before)
      | cons first rest => rfl

theorem splitSlashes_of_not_mem (h : '/' ∉ name) : splitSlashes name = [name] := by
  induction name with
  | nil => rfl
  | cons c name ih =>
    have hc : c ≠ '/' := (List.ne_of_not_mem_cons h).symm
    rw [splitSlashes, if_neg hc, ih (List.not_mem_of_not_mem_cons h)]

@[simp]
theorem names_nil : names [] = [] := rfl

theorem names_append (before after : List Char) :
    names (before ++ '/' :: after) = names before ++ names after := by
  rw [names, splitSlashes_append, List.filter_append]
  rfl

theorem names_of_not_mem (h : '/' ∉ name) :
    names name = if isEmptyComponent name then [] else [name] := by
  rw [names, splitSlashes_of_not_mem h]
  cases hname : isEmptyComponent name <;> simp [hname]

theorem not_mem_of_mem_splitSlashes {component : List Char} (h : component ∈ splitSlashes cs) :
    '/' ∉ component := by
  induction cs generalizing component with
  | nil =>
    rw [List.mem_singleton.1 h]
    exact List.not_mem_nil
  | cons c cs ih =>
    rw [splitSlashes] at h
    split at h
    · next =>
      rcases List.mem_cons.1 h with rfl | h
      · exact List.not_mem_nil
      · exact ih h
    · next hc =>
      split at h
      · next =>
        rw [List.mem_singleton.1 h]
        simpa using Ne.symm hc
      · next first rest hsplit =>
        rcases List.mem_cons.1 h with rfl | h
        · have hfirst := ih (hsplit ▸ List.mem_cons_self)
          simpa [hfirst] using Ne.symm hc
        · exact ih (hsplit ▸ List.mem_cons_of_mem _ h)

/-- A name is neither the root nor a dot. -/
theorem not_headed_of_mem_names {component : List Char} (h : component ∈ names cs) :
    component ≠ ['/'] ∧ component ≠ ['.'] := by
  obtain ⟨hmem, hname⟩ := List.mem_filter.1 h
  constructor
  · rintro rfl
    exact not_mem_of_mem_splitSlashes hmem (List.mem_singleton_self _)
  · rintro rfl
    simp [isEmptyComponent] at hname

theorem mem_lead {component : List Char} (h : component ∈ lead cs) :
    component = ['/'] ∨ component = ['.'] := by
  rw [lead] at h
  split at h
  · exact .inl (List.mem_singleton.1 h)
  · split at h
    · exact .inr (List.mem_singleton.1 h)
    · cases h

/-- The lead is what comes before the first name. -/
theorem takeWhile_parts (cs : List Char) :
    (lead cs ++ names cs).takeWhile (fun part => part = ['/'] ∨ part = ['.']) = lead cs := by
  rw [List.takeWhile_append_of_pos fun part hpart => by simpa using mem_lead hpart]
  cases hnames : names cs with
  | nil => simp
  | cons name rest =>
    obtain ⟨hroot, hdot⟩ := not_headed_of_mem_names (hnames ▸ List.mem_cons_self)
    rw [List.takeWhile_cons_of_neg (by simp [hroot, hdot]), List.append_nil]

/-- Paths with the same parts have the same lead and the same names. -/
theorem parts_inj {path other : String} : parts path = parts other ↔
    lead path.toList = lead other.toList ∧ names path.toList = names other.toList := by
  constructor
  · intro h
    have h := (List.map_inj_right fun _ _ => String.ofList_injective).1 h
    have hlead : lead path.toList = lead other.toList := by
      rw [← takeWhile_parts, h, takeWhile_parts]
    rw [hlead, List.append_right_inj] at h
    exact ⟨hlead, h⟩
  · rintro ⟨hlead, hnames⟩
    rw [parts, parts, hlead, hnames]

/-! ## The last component -/

/-- The text before the last slash and the text after it. -/
def Cuts (cs before name : List Char) : Prop :=
  '/' ∉ name ∧ (cs = before ++ '/' :: name ∨ cs = name ∧ before = [])

theorem exists_cuts (cs : List Char) :
    ∃ before name, cutLast cs.reverse = (before.reverse, name.reverse) ∧ Cuts cs before name := by
  have hsplit : cs.reverse.takeWhile (· ≠ '/') ++ cs.reverse.dropWhile (· ≠ '/') = cs.reverse :=
    List.takeWhile_append_dropWhile
  have hslash : '/' ∉ cs.reverse.takeWhile (· ≠ '/') := fun hmem => by
    simpa using List.mem_takeWhile_imp hmem
  unfold cutLast Cuts
  generalize cs.reverse.takeWhile (· ≠ '/') = component at hsplit hslash ⊢
  cases hrest : cs.reverse.dropWhile (· ≠ '/') with
  | nil =>
    refine ⟨[], component.reverse, by simp, by simpa using hslash, .inr ⟨?_, rfl⟩⟩
    rw [← cs.reverse_reverse, ← hsplit, hrest, List.append_nil]
  | cons c before =>
    have hc : c = '/' := by
      have hhead := List.head?_dropWhile_not (· ≠ '/') cs.reverse
      rw [hrest] at hhead
      simpa using hhead
    refine ⟨before.reverse, component.reverse, by simp, by simpa using hslash, .inl ?_⟩
    rw [← cs.reverse_reverse, ← hsplit, hrest, hc]
    simp

theorem isEmptyComponent_reverse (component : List Char) :
    isEmptyComponent component.reverse = isEmptyComponent component := by
  simp [isEmptyComponent, List.reverse_eq_iff]

theorem Cuts.names_eq (h : Cuts cs before name) :
    names cs = names before ++ if isEmptyComponent name then [] else [name] := by
  obtain ⟨hname, rfl | ⟨rfl, rfl⟩⟩ := h
  · rw [names_append, names_of_not_mem hname]
  · rw [names_of_not_mem hname, names_nil, List.nil_append]

theorem Cuts.length_lt (h : Cuts cs before name) (hne : cs ≠ []) : before.length < cs.length := by
  obtain ⟨-, rfl | ⟨rfl, rfl⟩⟩ := h
  · simp
  · exact List.length_pos_iff.2 hne

/-! ## Trimming -/

/-- Nothing of a text, or all, or what comes before a slash. -/
def Front (cs kept : List Char) : Prop :=
  kept = [] ∨ kept = cs ∨ ∃ dropped, cs = kept ++ '/' :: dropped

theorem Front.trans {kept rest : List Char} (h : Front kept rest) (hcs : Front cs kept) :
    Front cs rest := by
  rcases h with rfl | rfl | ⟨dropped, rfl⟩
  · exact .inl rfl
  · exact hcs
  · rcases hcs with hnil | rfl | ⟨more, rfl⟩
    · cases (List.append_eq_nil_iff.1 hnil).2
    · exact .inr (.inr ⟨dropped, rfl⟩)
    · exact .inr (.inr ⟨dropped ++ '/' :: more, by simp⟩)

theorem Front.isPrefix {kept : List Char} (h : Front cs kept) : kept <+: cs := by
  rcases h with rfl | rfl | ⟨dropped, rfl⟩
  · exact List.nil_prefix
  · exact List.prefix_rfl
  · exact List.prefix_append _ _

theorem Cuts.front (h : Cuts cs before name) : Front cs before := by
  obtain ⟨-, rfl | ⟨-, rfl⟩⟩ := h
  · exact .inr (.inr ⟨name, rfl⟩)
  · exact .inl rfl

/-- What is kept of a text when the components at its end that mean nothing are dropped. -/
structure Trims (cs kept : List Char) : Prop where
  names_eq : names kept = names cs
  /-- It ends in a name, if there is anything in it. -/
  ends : kept = [] ∨ ∃ before name, Cuts kept before name ∧ isEmptyComponent name = false ∧
    cutLast kept.reverse = (before.reverse, name.reverse)
  front : Front cs kept

theorem trims_nil : Trims [] [] := ⟨rfl, .inl rfl, .inl rfl⟩

/-- What a component at the end that means nothing leaves is kept or dropped before it. -/
theorem Trims.of_cuts {kept : List Char} (h : Trims before kept) (hcuts : Cuts cs before name)
    (hempty : isEmptyComponent name = true) : Trims cs kept := by
  refine ⟨?_, h.ends, h.front.trans hcuts.front⟩
  rw [h.names_eq, hcuts.names_eq, if_pos hempty, List.append_nil]

theorem trims_trimBody {fuel : Nat} (h : cs.length ≤ fuel) :
    ∃ kept, trimBody fuel cs.reverse = kept.reverse ∧ Trims cs kept := by
  induction fuel generalizing cs with
  | zero =>
    obtain rfl := List.eq_nil_of_length_eq_zero (Nat.le_zero.1 h)
    exact ⟨[], rfl, trims_nil⟩
  | succ fuel ih =>
    rw [trimBody]
    split
    · next hnil =>
      obtain rfl := List.reverse_eq_nil_iff.1 hnil
      exact ⟨[], rfl, trims_nil⟩
    · next hne =>
      obtain ⟨before, name, hcut, hcuts⟩ := exists_cuts cs
      simp only [hcut, isEmptyComponent_reverse]
      split
      · next hempty =>
        have hlength := hcuts.length_lt (by simpa using hne)
        have hfuel : before.length ≤ fuel := by omega
        obtain ⟨kept, hkept, htrims⟩ := ih hfuel
        exact ⟨kept, hkept, htrims.of_cuts hcuts hempty⟩
      · next hname =>
        have hname : isEmptyComponent name = false := by simpa using hname
        exact ⟨cs, rfl, rfl, .inr ⟨before, name, hcuts, hname, hcut⟩, .inr (.inl rfl)⟩

/-! ## The lead -/

@[simp]
theorem lead_nil : lead [] = [] := rfl

/-- What comes before a slash leads as the whole text does. -/
theorem lead_append (hne : cs ≠ []) (after : List Char) : lead (cs ++ '/' :: after) = lead cs := by
  have hhead : (cs ++ '/' :: after).head? = cs.head? := by
    cases cs with
    | nil => exact absurd rfl hne
    | cons c cs => rfl
  have hfirst : (cs ++ '/' :: after).takeWhile (· ≠ '/') = cs.takeWhile (· ≠ '/') := by
    rw [List.takeWhile_append]
    split
    · next hall =>
      have hwhole : cs.takeWhile (· ≠ '/') = cs := (List.takeWhile_prefix _).eq_of_length hall
      rw [hwhole]
      simp
    · rfl
  rw [lead, lead, hhead, hfirst]

/-- The head of a path: the root, or a dot that is a whole component, or nothing at all. -/
inductive Headed : List Char → List Char → Prop
  | root (body : List Char) : Headed ['/'] body
  | dot : Headed ['.'] []
  | dotSlash (rest : List Char) : Headed ['.'] ('/' :: rest)
  | bare {body : List Char} : lead body = [] → Headed [] body

variable {head body kept : List Char}

theorem headed (cs : List Char) : Headed (cs.take (headLength cs)) (cs.drop (headLength cs)) := by
  unfold headLength
  split
  · exact .root _
  · exact .dot
  · exact .dotSlash _
  · next hroot hdot hslash =>
    refine .bare ?_
    cases cs with
    | nil => rfl
    | cons c rest =>
      have hc : c ≠ '/' := fun h => hroot rest (by rw [h])
      have hfirst : (c :: rest).takeWhile (· ≠ '/') ≠ ['.'] := by
        rw [List.takeWhile_cons_of_pos (by simpa using hc)]
        intro h
        obtain ⟨rfl, hrest⟩ := List.cons_eq_cons.1 h
        cases rest with
        | nil => exact hdot rfl
        | cons d more =>
          have hd : d = '/' := by simpa [List.takeWhile_cons] using hrest
          exact hslash more (by rw [hd])
      rw [List.drop_zero, lead, if_neg (by simpa using hc), if_neg hfirst]

theorem Headed.lead_eq (h : Headed head body) :
    lead (head ++ body) = if head = [] then [] else [head] := by
  cases h with
  | bare hlead => exact hlead
  | _ => rfl

theorem Headed.names_eq (h : Headed head body) : names (head ++ body) = names body := by
  cases h with
  | root => exact names_append [] body
  | dot => rfl
  | dotSlash rest => exact (names_append ['.'] rest).trans (names_append [] rest).symm
  | bare => rfl

/-- What is kept of the body keeps its head. -/
theorem Headed.front (h : Headed head body) (hkept : Front body kept) : Headed head kept := by
  cases h with
  | root => exact .root kept
  | dot =>
    rcases hkept with rfl | rfl | ⟨dropped, hdropped⟩
    · exact .dot
    · exact .dot
    · cases (List.nil_eq_append_iff.1 hdropped).2
  | dotSlash rest =>
    cases kept with
    | nil => exact .dot
    | cons c kept =>
      obtain rfl : c = '/' := by
        rcases hkept with hnil | heq | ⟨dropped, hdropped⟩
        · cases hnil
        · exact (List.cons_eq_cons.1 heq).1
        · exact (List.cons_eq_cons.1 hdropped).1.symm
      exact .dotSlash kept
  | bare hlead =>
    rcases hkept with rfl | rfl | ⟨dropped, rfl⟩
    · exact .bare rfl
    · exact .bare hlead
    · by_cases hnil : kept = []
      · exact .bare (by rw [hnil, lead_nil])
      · exact .bare (lead_append hnil dropped ▸ hlead)

/-! ## Fronts with the same names -/

theorem isEmptyComponent_append (h : isEmptyComponent name = false) (more : List Char) :
    isEmptyComponent (name ++ more) = false := by
  simp only [isEmptyComponent, Bool.or_eq_false_iff, decide_eq_false_iff_not] at h ⊢
  refine ⟨fun hnil => h.1 (List.append_eq_nil_iff.1 hnil).1, fun hdot => ?_⟩
  rcases List.append_eq_singleton_iff.1 hdot with ⟨hname, -⟩ | ⟨hname, -⟩
  · exact h.1 hname
  · exact h.2 hname

theorem names_append_ne_nil (hslash : '/' ∉ name) (hname : isEmptyComponent name = false)
    (more : List Char) : names (name ++ more) ≠ [] := by
  by_cases hmem : '/' ∈ more
  · obtain ⟨first, rest, rfl, hfirst⟩ := List.eq_append_cons_of_mem hmem
    rw [← List.append_assoc, names_append, names_of_not_mem (by simp [hslash, hfirst]),
      isEmptyComponent_append hname]
    simp
  · rw [names_of_not_mem (by simp [hslash, hmem]), isEmptyComponent_append hname]
    simp

/-- A front of a text has no more names than the text. -/
theorem length_names_le {front : List Char} (h : front <+: cs) :
    (names front).length ≤ (names cs).length := by
  obtain ⟨more, rfl⟩ := h
  obtain ⟨before, name, -, hcuts⟩ := exists_cuts front
  have hlast : (names name).length ≤ (names (name ++ more)).length := by
    rw [names_of_not_mem hcuts.1]
    split
    · exact Nat.zero_le _
    · next hname =>
      have hne := names_append_ne_nil hcuts.1 (by simpa using hname) more
      exact List.length_pos_iff.2 hne
  obtain ⟨-, rfl | ⟨rfl, rfl⟩⟩ := hcuts
  · rw [List.append_assoc, List.cons_append, names_append, names_append, List.length_append,
      List.length_append]
    exact Nat.add_le_add_left hlast _
  · exact hlast

theorem eq_of_names_singleton {front : List Char} (hslash : '/' ∉ name) (h : front <+: name)
    (hnames : names front = [name]) : front = name := by
  rw [names_of_not_mem fun hmem => hslash (h.subset hmem)] at hnames
  split at hnames
  · cases hnames
  · exact List.singleton_inj.1 hnames

/-- What is kept by trimming loses a name with every front that is shorter. -/
theorem Trims.eq_of_names {front : List Char} (h : Trims cs kept) (hfront : front <+: kept)
    (hnames : names front = names kept) : front = kept := by
  rcases h.ends with rfl | ⟨before, name, hcuts, hname, -⟩
  · exact List.prefix_nil.1 hfront
  · rw [hcuts.names_eq, hname, if_neg Bool.false_ne_true] at hnames
    obtain ⟨hslash, rfl | ⟨rfl, rfl⟩⟩ := hcuts
    · rcases List.prefix_or_prefix_of_prefix hfront (List.prefix_append before _) with
        hbefore | ⟨rest, rfl⟩
      · -- a front of what is before the last name has a name less
        have hle := length_names_le hbefore
        rw [hnames, List.length_append] at hle
        exact absurd hle (Nat.not_succ_le_self _)
      · rcases List.prefix_cons_iff.1 ((List.prefix_append_right_inj before).1 hfront) with
          rfl | ⟨rest, rfl, hrest⟩
        · simp at hnames
        · rw [names_append, List.append_right_inj] at hnames
          rw [eq_of_names_singleton hslash hrest (by simpa using hnames)]
    · exact eq_of_names_singleton hslash hfront hnames

/-! ## Parents -/

/-- The parent of a path: the shortest front of its text that has all of its parts but the last,
which must not be the root. -/
structure IsParent (path parent : String) : Prop where
  parts : ∃ last, last ≠ "/" ∧ Path.parts path = Path.parts parent ++ [last]
  front : parent.toList <+: path.toList
  least {other : String} : other.toList <+: path.toList → Path.parts other = Path.parts parent →
    parent.toList.length ≤ other.toList.length

/-- A path without a parent has no parts but the root. -/
def IsTop (path : String) : Prop := ∀ part ∈ Path.parts path, part = "/"

/-- The steps of finding a parent: a path has no names, or its last one is cut off. -/
theorem parent?_cases (path : String) : ∃ head body, path.toList = head ++ body ∧ Headed head body ∧
    (names body = [] ∧ (head = ['.'] ∧ parent? path = some "" ∨
        head ≠ ['.'] ∧ parent? path = none) ∨
      ∃ before name kept, parent? path = some (.ofList (head ++ kept)) ∧ Trims before kept ∧
        Front body kept ∧ isEmptyComponent name = false ∧ names body = names before ++ [name]) := by
  refine ⟨_, _, (List.take_append_drop (headLength path.toList) path.toList).symm, headed _, ?_⟩
  have hlength : (path.toList.drop (headLength path.toList)).length ≤ path.toList.length := by simp
  obtain ⟨kept, hkept, htrims⟩ := trims_trimBody hlength
  rw [parent?]
  simp only [hkept, List.reverse_eq_nil_iff]
  rcases htrims.ends with rfl | ⟨before, name, hcuts, hname, hcut⟩
  · refine .inl ⟨htrims.names_eq.symm, ?_⟩
    rw [if_pos rfl]
    split
    · next hdot => exact .inl ⟨hdot, rfl⟩
    · next hdot => exact .inr ⟨hdot, rfl⟩
  · have hnames := htrims.names_eq.symm.trans hcuts.names_eq
    rw [hname] at hnames
    have hne : kept ≠ [] := by
      rintro rfl
      rw [← htrims.names_eq] at hnames
      simp at hnames
    have hshorter : before.length ≤ path.toList.length := by
      have hbefore := hcuts.length_lt hne
      have hwhole := htrims.front.isPrefix.length_le
      omega
    obtain ⟨rest, hrest, htrimmed⟩ := trims_trimBody hshorter
    refine .inr ⟨before, name, rest, ?_, htrimmed, ?_, hname, hnames⟩
    · rw [if_neg hne]
      simp only [hcut, hrest, List.reverse_reverse]
    · exact (htrimmed.front.trans hcuts.front).trans htrims.front

/-! ## The parts of a parent -/

/-- A text that leads as another one does, and is a front of it, has its head. -/
theorem Headed.exists_of_isPrefix {front : List Char} (h : Headed head body)
    (hfront : front <+: head ++ body) (hlead : lead front = lead (head ++ body)) :
    ∃ rest, front = head ++ rest ∧ rest <+: body ∧ names front = names rest := by
  cases h with
  | bare => exact ⟨front, rfl, hfront, rfl⟩
  | root =>
    rcases List.prefix_cons_iff.1 hfront with rfl | ⟨rest, rfl, hrest⟩
    · cases hlead
    · exact ⟨rest, rfl, hrest, (Headed.root rest).names_eq⟩
  | dot =>
    rcases List.prefix_cons_iff.1 hfront with rfl | ⟨rest, rfl, hrest⟩
    · cases hlead
    · obtain rfl := List.prefix_nil.1 hrest
      exact ⟨[], rfl, hrest, rfl⟩
  | dotSlash body =>
    rcases List.prefix_cons_iff.1 hfront with rfl | ⟨rest, rfl, hrest⟩
    · cases hlead
    · refine ⟨rest, rfl, hrest, ?_⟩
      rcases List.prefix_cons_iff.1 hrest with rfl | ⟨rest, rfl, -⟩
      · rfl
      · exact (Headed.dotSlash rest).names_eq

theorem isParent_of_parent? {path parent : String} (h : parent? path = some parent) :
    IsParent path parent := by
  obtain ⟨head, body, hpath, hhead, ⟨hnames, ⟨rfl, hparent⟩ | ⟨-, hnone⟩⟩ |
    ⟨before, name, kept, hparent, htrims, hfront, hname, hnames⟩⟩ := parent?_cases path
  · obtain rfl : "" = parent := Option.some_inj.1 (hparent.symm.trans h)
    have hparts : parts path = ["."] := by
      rw [parts, hpath, hhead.lead_eq, hhead.names_eq, hnames]
      rfl
    exact ⟨⟨".", by decide, hparts⟩, List.nil_prefix, fun _ _ => Nat.zero_le _⟩
  · rw [hnone] at h
    cases h
  · -- the head stays, and of the names the one that was cut off is the last
    obtain rfl : .ofList (head ++ kept) = parent := Option.some_inj.1 (hparent.symm.trans h)
    have hkept := hhead.front hfront
    have hpre : head ++ kept <+: head ++ body :=
      (List.prefix_append_right_inj head).2 hfront.isPrefix
    refine ⟨⟨.ofList name, ?_, ?_⟩, ?_, ?_⟩
    · have hmem : name ∈ names body := by simp [hnames]
      exact fun hroot => (not_headed_of_mem_names hmem).1 (String.ofList_injective hroot)
    · rw [parts, parts, hpath, String.toList_ofList, hhead.lead_eq, hhead.names_eq, hkept.lead_eq,
        hkept.names_eq, hnames, htrims.names_eq]
      simp
    · rwa [String.toList_ofList, hpath]
    · intro other hother hparts
      obtain ⟨hlead, hsame⟩ := parts_inj.1 hparts
      rw [String.toList_ofList] at hlead hsame ⊢
      rw [hpath] at hother
      rw [hkept.lead_eq, ← hhead.lead_eq] at hlead
      obtain ⟨rest, hrest, hbody, hrestNames⟩ := hhead.exists_of_isPrefix hother hlead
      rw [hrest, List.length_append, List.length_append, Nat.add_le_add_iff_left]
      rcases Nat.lt_or_ge rest.length kept.length with hshort | hlong
      · have hpre := List.prefix_of_prefix_length_le hbody hfront.isPrefix hshort.le
        have heq := htrims.eq_of_names hpre (by rw [← hrestNames, hsame, hkept.names_eq])
        exact absurd (congrArg List.length heq) hshort.ne
      · exact hlong

theorem isTop_of_parent? {path : String} (h : parent? path = none) : IsTop path := by
  obtain ⟨head, body, hpath, hhead, ⟨hnames, ⟨-, hparent⟩ | ⟨hdot, -⟩⟩ |
    ⟨before, name, kept, hparent, -⟩⟩ := parent?_cases path
  · rw [hparent] at h
    cases h
  · intro part hpart
    rw [parts, hpath, hhead.lead_eq, hhead.names_eq, hnames] at hpart
    cases hhead with
    | root => simpa using hpart
    | bare => simp at hpart
    | dot => exact absurd rfl hdot
    | dotSlash => exact absurd rfl hdot
  · rw [hparent] at h
    cases h

theorem IsParent.not_isTop {path parent : String} (h : IsParent path parent) : ¬IsTop path := by
  intro htop
  obtain ⟨last, hlast, hparts⟩ := h.parts
  exact hlast (htop last (by simp [hparts]))

/-- A path has one parent. -/
theorem IsParent.unique {path parent other : String} (h : IsParent path parent)
    (hother : IsParent path other) : parent = other := by
  obtain ⟨last, -, hparts⟩ := h.parts
  obtain ⟨otherLast, -, hotherParts⟩ := hother.parts
  have hsame : Path.parts parent = Path.parts other :=
    (List.append_inj' (hparts.symm.trans hotherParts) rfl).1
  have hlength : parent.toList.length = other.toList.length :=
    Nat.le_antisymm (h.least hother.front hsame.symm) (hother.least h.front hsame)
  have hpre := List.prefix_of_prefix_length_le h.front hother.front hlength.le
  exact String.toList_inj.1 (hpre.eq_of_length hlength)

/-- Cutting at the last component finds the parent. -/
theorem parent?_eq_some_iff {path parent : String} :
    parent? path = some parent ↔ IsParent path parent := by
  refine ⟨isParent_of_parent?, fun h => ?_⟩
  cases hfound : parent? path with
  | none => exact absurd (isTop_of_parent? hfound) h.not_isTop
  | some found => rw [(isParent_of_parent? hfound).unique h]

theorem parent?_eq_none_iff {path : String} : parent? path = none ↔ IsTop path := by
  refine ⟨isTop_of_parent?, fun h => ?_⟩
  cases hfound : parent? path with
  | none => rfl
  | some found => exact absurd h (isParent_of_parent? hfound).not_isTop

/-! ## Going up -/

/-- The paths from a path upwards: each is followed by its parent, and the last has none. -/
inductive Ascends : String → List String → Prop
  | top {path : String} : IsTop path → Ascends path [path]
  | step {path parent : String} {above : List String} :
      IsParent path parent → Ascends parent above → Ascends path (path :: above)

/-- The number of parts besides the root. -/
def depth (path : String) : Nat := (parts path).countP (· ≠ "/")

variable {path parent : String} {paths others : List String}

theorem IsTop.depth_eq (h : IsTop path) : depth path = 0 :=
  List.countP_eq_zero.2 fun part hpart => by simpa using h part hpart

theorem IsParent.depth_eq (h : IsParent path parent) : depth path = depth parent + 1 := by
  obtain ⟨last, hlast, hparts⟩ := h.parts
  rw [depth, depth, hparts, List.countP_append, List.countP_singleton, if_pos (by simpa using hlast)]

/-- A parent is a shorter text. -/
theorem IsParent.length_lt (h : IsParent path parent) :
    parent.toList.length < path.toList.length := by
  refine lt_of_le_of_ne h.front.length_le fun hlength => ?_
  obtain rfl := String.toList_inj.1 (h.front.eq_of_length hlength)
  exact absurd h.depth_eq (Nat.succ_ne_self _).symm

/-- There is one way up. -/
theorem Ascends.unique (h : Ascends path paths) (hothers : Ascends path others) :
    others = paths := by
  induction h generalizing others with
  | top htop =>
    cases hothers with
    | top => rfl
    | step hparent => exact absurd htop hparent.not_isTop
  | step hparent _ ih =>
    cases hothers with
    | top htop => exact absurd htop hparent.not_isTop
    | step hother habove =>
      obtain rfl := hparent.unique hother
      rw [ih habove]

theorem Ascends.length_eq (h : Ascends path paths) : paths.length = depth path + 1 := by
  induction h with
  | top htop => rw [htop.depth_eq, List.length_singleton]
  | step hparent _ ih => rw [List.length_cons, ih, hparent.depth_eq]

theorem isAbsolute_iff : isAbsolute path = true ↔ "/" ∈ parts path := by
  have hmap : "/" ∈ parts path ↔ ['/'] ∈ lead path.toList ++ names path.toList :=
    List.mem_map_of_injective fun _ _ => String.ofList_injective
  rw [hmap, isAbsolute, decide_eq_true_iff, List.mem_append, lead]
  split
  · next hroot => simp [hroot]
  · next hroot =>
    refine iff_of_false hroot ?_
    rintro (hdot | hname)
    · split at hdot <;> simp at hdot
    · exact (not_headed_of_mem_names hname).1 rfl

theorem IsParent.isAbsolute_iff (h : IsParent path parent) :
    isAbsolute path = true ↔ isAbsolute parent = true := by
  obtain ⟨last, hlast, hparts⟩ := h.parts
  rw [Path.isAbsolute_iff, Path.isAbsolute_iff, hparts, List.mem_append, List.mem_singleton]
  exact or_iff_left hlast.symm

theorem eq_of_names_eq_nil (hslash : '/' ∉ name) (h : names name = []) :
    name = [] ∨ name = ['.'] := by
  rw [names_of_not_mem hslash] at h
  split at h
  · next hempty => simpa [isEmptyComponent] using hempty
  · cases h

/-- Only the empty path has no parts. -/
theorem parts_eq_nil_iff : parts path = [] ↔ path = "" := by
  refine ⟨fun h => ?_, fun h => h ▸ rfl⟩
  obtain ⟨hlead, hnames⟩ := List.append_eq_nil_iff.1 (List.map_eq_nil_iff.1 h)
  refine String.toList_eq_nil_iff.1 ?_
  generalize path.toList = cs at hlead hnames
  by_cases hslash : '/' ∈ cs
  · obtain ⟨first, rest, rfl, hfirst⟩ := List.eq_append_cons_of_mem hslash
    rw [names_append] at hnames
    rcases eq_of_names_eq_nil hfirst (List.append_eq_nil_iff.1 hnames).1 with rfl | rfl
    · cases hlead
    · cases hlead
  · rcases eq_of_names_eq_nil hslash hnames with rfl | rfl
    · rfl
    · cases hlead

theorem IsTop.parts_eq (h : IsTop path) : parts path = if isAbsolute path then ["/"] else [] := by
  have hnames : names path.toList = [] := List.eq_nil_iff_forall_not_mem.2 fun name hname =>
    (not_headed_of_mem_names hname).1 (String.ofList_injective
      (h (.ofList name) (List.mem_map_of_mem (List.mem_append_right _ hname))))
  rcases Bool.eq_false_or_eq_true (isAbsolute path) with habsolute | hrelative
  · rw [if_pos habsolute, parts, hnames, lead, if_pos (by simpa [isAbsolute] using habsolute)]
    rfl
  · have hroot : "/" ∉ parts path := by simp [← isAbsolute_iff, hrelative]
    rw [if_neg (by simp [hrelative])]
    exact List.eq_nil_iff_forall_not_mem.2 fun part hpart => hroot (h part hpart ▸ hpart)

/-- The way up ends at the root or at the empty path. -/
theorem Ascends.exists_last (h : Ascends path paths) : ∃ top, paths.getLast? = some top ∧
    parts top = if isAbsolute path then ["/"] else [] := by
  induction h with
  | top htop => exact ⟨_, rfl, htop.parts_eq⟩
  | step hparent habove ih =>
    obtain ⟨top, htop, hparts⟩ := ih
    refine ⟨top, ?_, ?_⟩
    · rw [List.getLast?_cons, htop, Option.getD_some]
    · simp only [hparent.isAbsolute_iff, hparts]

end Path

end ScriptValues
