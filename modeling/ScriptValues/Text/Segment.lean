/-!
# Cutting a text at occurrences of another

`Segment.split` cuts at the leftmost occurrences of a separator, which do not overlap. Joining the
parts again gives the text back, and replacing is joining with something else.
-/

namespace ScriptValues

namespace Segment

/-- The text after `t`, if `cs` begins with it. -/
def dropLeading? : List Char → List Char → Option (List Char)
  | [], cs => some cs
  | _ :: _, [] => none
  | c :: t, d :: cs => if c = d then dropLeading? t cs else none

theorem append_of_dropLeading? {t cs rest : List Char} (h : dropLeading? t cs = some rest) :
    cs = t ++ rest := by
  induction t generalizing cs with
  | nil => simpa [dropLeading?] using h
  | cons c t ih =>
    cases cs with
    | nil => simp [dropLeading?] at h
    | cons d cs =>
      simp only [dropLeading?] at h
      split at h
      · next hcd => rw [hcd, ih h, List.cons_append]
      · simp at h

/-- The text before and after the first occurrence of `t`. -/
def cut? (t : List Char) : List Char → Option (List Char × List Char)
  | [] => (dropLeading? t []).map ([], ·)
  | c :: cs =>
    match dropLeading? t (c :: cs) with
    | some rest => some ([], rest)
    | none => (cut? t cs).map fun (before, rest) => (c :: before, rest)

theorem append_of_cut? {t cs before rest : List Char} (h : cut? t cs = some (before, rest)) :
    cs = before ++ (t ++ rest) := by
  induction cs generalizing before with
  | nil =>
    obtain ⟨r, hr, he⟩ := Option.map_eq_some_iff.1 h
    cases he
    simpa using append_of_dropLeading? hr
  | cons c cs ih =>
    simp only [cut?] at h
    split at h
    · next r hr =>
      cases h
      simpa using append_of_dropLeading? hr
    · obtain ⟨⟨b, r⟩, hb, he⟩ := Option.map_eq_some_iff.1 h
      cases he
      rw [ih hb, List.cons_append]

/-- The parts between the occurrences of `t`, which is not empty. -/
def parts (t : List Char) (ht : t ≠ []) (cs : List Char) : List (List Char) :=
  match _found : cut? t cs with
  | none => [cs]
  | some (before, rest) => before :: parts t ht rest
termination_by cs.length
decreasing_by
  have := congrArg List.length (append_of_cut? _found)
  have := List.length_pos_iff.2 ht
  simp only [List.length_append] at *
  omega

/-- The parts of a text between the occurrences of a separator; an empty separator cuts between
all characters. -/
def split (cs separator : List Char) : List (List Char) :=
  if h : separator = [] then cs.map ([·]) else parts separator h cs

/-- A text with every occurrence of `old` replaced; an empty `old` occurs around every
character. -/
def replace (cs old new : List Char) : List Char :=
  if h : old = [] then cs.foldr (fun c rest => new ++ c :: rest) new
  else new.intercalate (parts old h cs)

/-- Whether `t` occurs in a text. -/
def occurs (t cs : List Char) : Bool := (cut? t cs).isSome

end Segment

end ScriptValues
