/-!
# Entries sorted by key

A finite map from texts is the list of its entries in strictly ascending code-point order of the
keys, so that equal maps are equal lists and the order in which entries were set is not recorded.

* `Entries.lookup_insert`, `Entries.lookup_erase`: what the two changes do to a look-up.
* `Entries.Sorted.insert`, `Entries.Sorted.erase`: both keep the order.
-/

namespace ScriptValues

/-- Entries of a map from texts. -/
abbrev Entries (α : Type) := List (String × α)

namespace Entries

variable {α : Type}

/-- Sets `key` to `value`, in place of an earlier entry. -/
def insert (key : String) (value : α) : Entries α → Entries α
  | [] => [(key, value)]
  | (k, v) :: rest =>
    if key < k then (key, value) :: (k, v) :: rest
    else if key = k then (key, value) :: rest
    else (k, v) :: insert key value rest

def erase (key : String) (entries : Entries α) : Entries α :=
  entries.filter fun entry => entry.1 ≠ key

def lookup? (key : String) : Entries α → Option α
  | [] => none
  | (k, v) :: rest => if key = k then some v else lookup? key rest

def has (key : String) (entries : Entries α) : Bool := (lookup? key entries).isSome

/-- The entries of a list of pairs, of which a later one wins. -/
def ofList (pairs : List (String × α)) : Entries α :=
  pairs.foldl (fun entries (k, v) => insert k v entries) []

/-- The keys stand in strictly ascending order. -/
def Sorted (entries : Entries α) : Prop := entries.Pairwise fun a b => a.1 < b.1

/-! ## Lemmas -/

theorem lookup_insert (key other : String) (value : α) (entries : Entries α) :
    lookup? other (insert key value entries)
      = if other = key then some value else lookup? other entries := by
  induction entries with
  | nil => simp [insert, lookup?]
  | cons entry rest ih =>
    obtain ⟨k, v⟩ := entry
    simp only [insert]
    split
    · simp [lookup?]
    · split
      · next h => subst h; by_cases ho : other = key <;> simp [lookup?, ho]
      · next hk =>
        simp only [lookup?, ih]
        by_cases ho : other = k
        · subst ho
          simp [Ne.symm hk]
        · simp [ho]

theorem lookup_erase (key other : String) (entries : Entries α) :
    lookup? other (erase key entries) = if other = key then none else lookup? other entries := by
  induction entries with
  | nil => simp [erase, lookup?]
  | cons entry rest ih =>
    obtain ⟨k, v⟩ := entry
    simp only [erase, List.filter_cons] at ih ⊢
    by_cases hk : k = key
    · subst hk
      simp only [ne_eq, not_true_eq_false, decide_false, Bool.false_eq_true, if_false, ih, lookup?]
      split <;> rfl
    · simp only [ne_eq, hk, not_false_eq_true, decide_true, if_true, lookup?, ih]
      by_cases ho : other = k
      · subst ho; simp [hk]
      · simp [ho]

theorem mem_of_lookup {key : String} {value : α} {entries : Entries α}
    (h : lookup? key entries = some value) : (key, value) ∈ entries := by
  induction entries with
  | nil => simp [lookup?] at h
  | cons entry rest ih =>
    obtain ⟨k, v⟩ := entry
    simp only [lookup?] at h
    split at h
    · next hk =>
      obtain rfl := Option.some.inj h
      rw [hk]
      exact List.mem_cons_self
    · exact List.mem_cons_of_mem _ (ih h)

theorem ne_of_lookup_eq_none {key : String} {entry : String × α} {entries : Entries α}
    (h : lookup? key entries = none) (he : entry ∈ entries) : entry.1 ≠ key := by
  induction entries with
  | nil => cases he
  | cons first rest ih =>
    obtain ⟨k, v⟩ := first
    simp only [lookup?] at h
    split at h
    · cases h
    · next hk =>
      rcases List.mem_cons.1 he with rfl | he
      · exact Ne.symm hk
      · exact ih h he

/-- The keys are those that a look-up finds. -/
theorem mem_keys {entries : Entries α} (key : String) :
    key ∈ entries.map Prod.fst ↔ (lookup? key entries).isSome := by
  induction entries with
  | nil => simp [lookup?]
  | cons entry rest ih =>
    obtain ⟨k, v⟩ := entry
    by_cases hk : key = k
    · simp [lookup?, hk]
    · simp only [List.map_cons, List.mem_cons, hk, false_or, lookup?, if_false]
      exact ih

theorem mem_erase {key : String} {entry : String × α} {entries : Entries α} :
    entry ∈ erase key entries ↔ entry ∈ entries ∧ entry.1 ≠ key := by
  simp [erase]

theorem mem_insert {key : String} {value : α} {entries : Entries α} {entry : String × α}
    (h : entry ∈ insert key value entries) : entry = (key, value) ∨ entry ∈ entries := by
  induction entries with
  | nil => simpa [insert] using h
  | cons first rest ih =>
    obtain ⟨k, v⟩ := first
    simp only [insert] at h
    split at h
    · simpa using h
    · split at h
      · rcases List.mem_cons.1 h with h | h
        · exact .inl h
        · exact .inr (List.mem_cons_of_mem _ h)
      · rcases List.mem_cons.1 h with h | h
        · exact .inr (h ▸ List.mem_cons_self)
        · exact (ih h).imp id (List.mem_cons_of_mem _)

theorem mem_insert_self {key : String} {value : α} {entries : Entries α} :
    (key, value) ∈ insert key value entries := by
  induction entries with
  | nil => simp [insert]
  | cons first rest ih =>
    obtain ⟨k, v⟩ := first
    simp only [insert]
    split
    · exact List.mem_cons_self
    · split
      · exact List.mem_cons_self
      · exact List.mem_cons_of_mem _ ih

theorem mem_insert_of_mem {key : String} {value : α} {entry : String × α} {entries : Entries α}
    (h : entry ∈ entries) (hne : entry.1 ≠ key) : entry ∈ insert key value entries := by
  induction entries with
  | nil => cases h
  | cons first rest ih =>
    obtain ⟨k, v⟩ := first
    simp only [insert]
    split
    · exact List.mem_cons_of_mem _ h
    · split
      · next hk =>
        rcases List.mem_cons.1 h with rfl | h
        · exact absurd hk.symm hne
        · exact List.mem_cons_of_mem _ h
      · rcases List.mem_cons.1 h with rfl | h
        · exact List.mem_cons_self
        · exact List.mem_cons_of_mem _ (ih h)

theorem erase_of_lookup_eq_none {key : String} {entries : Entries α}
    (h : lookup? key entries = none) : erase key entries = entries :=
  List.filter_eq_self.2 fun entry he => by simpa using ne_of_lookup_eq_none h he

/-- In sorted entries a key has only one entry. -/
theorem Sorted.lookup_of_mem {key : String} {value : α} {entries : Entries α} (h : Sorted entries)
    (hmem : (key, value) ∈ entries) : lookup? key entries = some value := by
  induction entries with
  | nil => cases hmem
  | cons first rest ih =>
    obtain ⟨k, v⟩ := first
    obtain ⟨hk, hrest⟩ := List.pairwise_cons.1 h
    simp only [lookup?]
    rcases List.mem_cons.1 hmem with heq | hmem
    · obtain ⟨rfl, rfl⟩ := Prod.mk.inj heq
      rw [if_pos rfl]
    · have hlt := hk _ hmem
      have hne : key ≠ k := fun heq => String.lt_irrefl k (heq ▸ hlt)
      rw [if_neg hne]
      exact ih hrest hmem

theorem mem_ofList {pairs : List (String × α)} {entry : String × α} (h : entry ∈ ofList pairs) :
    entry ∈ pairs := by
  have main : ∀ (pairs : List (String × α)) (entries : Entries α),
      entry ∈ pairs.foldl (fun entries (k, v) => insert k v entries) entries →
        entry ∈ pairs ∨ entry ∈ entries := by
    intro pairs
    induction pairs with
    | nil => exact fun _ h => .inr h
    | cons pair rest ih =>
      intro entries h
      rcases ih _ h with h | h
      · exact .inl (List.mem_cons_of_mem _ h)
      · rcases mem_insert h with rfl | h
        · exact .inl List.mem_cons_self
        · exact .inr h
  rcases main pairs [] h with h | h
  · exact h
  · cases h

theorem Sorted.insert {key : String} {value : α} {entries : Entries α} (h : Sorted entries) :
    Sorted (Entries.insert key value entries) := by
  induction entries with
  | nil => simp [Entries.insert, Sorted]
  | cons entry rest ih =>
    obtain ⟨k, v⟩ := entry
    obtain ⟨hk, hrest⟩ := List.pairwise_cons.1 h
    simp only [Entries.insert]
    split
    · next hlt =>
      refine List.pairwise_cons.2 ⟨fun entry he => ?_, h⟩
      rcases List.mem_cons.1 he with rfl | he
      · exact hlt
      · exact String.lt_trans hlt (hk entry he)
    · next hge =>
      split
      · next heq =>
        subst heq
        exact List.pairwise_cons.2 ⟨hk, hrest⟩
      · next hne =>
        refine List.pairwise_cons.2 ⟨fun entry he => ?_, ih hrest⟩
        rcases mem_insert he with rfl | he
        · exact Decidable.byContradiction fun hlt =>
            hne (String.le_antisymm (String.not_lt.1 hlt) (String.not_lt.1 hge))
        · exact hk entry he

theorem Sorted.erase {key : String} {entries : Entries α} (h : Sorted entries) :
    Sorted (Entries.erase key entries) :=
  h.filter _

end Entries

end ScriptValues
