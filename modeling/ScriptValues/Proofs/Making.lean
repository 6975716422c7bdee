import ScriptValues.Proofs.Release
import ScriptValues.Script

/-!
# Making futures

Evaluating an expression makes futures, one after another, and changes none. A new future holds
only handles to futures that were there before it, so no circle comes about.

* `Futures.Makes`: some futures were made.
* `Futures.Makes.untangled`: making futures makes no circles.
* `Expression.evaluate_makes`: that is all that evaluating an expression does.
-/

namespace ScriptValues

/-- The cells that an expression makes; their promises are used up. -/
inductive Cell.Made : Cell → Prop
  | abandoned : Made .abandoned
  | delivered (v : Value) : Made (.delivered v)
  | resolved (v : Value) : Made (.resolved v)

theorem Cell.Made.ne_released {c : Cell} (h : c.Made) : c ≠ .released := by
  cases h <;> simp

namespace Futures

open Relation

variable {fs fs' : Futures} {roots : List Value} {id : FutureId} {c : Cell} {v : Value}

/-! ## One new future -/

theorem cell_create (fs : Futures) (c : Cell) (id : FutureId) :
    (fs.create c).2.cell id = if id.index = fs.cells.length then c else fs.cell id := by
  show cell ⟨fs.cells ++ [c]⟩ id = _
  rw [cell_append]
  by_cases hlt : id.index < fs.cells.length
  · rw [if_pos hlt, if_neg (by omega)]
  · rw [if_neg hlt]
    by_cases heq : id.index = fs.cells.length
    · rw [if_pos heq, heq, Nat.sub_self]
      rfl
    · rw [if_neg heq, List.getElem?_eq_none (by rw [List.length_singleton]; omega), cell,
        List.getElem?_eq_none (by omega)]

theorem cell_create_self (fs : Futures) (c : Cell) : (fs.create c).2.cell (fs.create c).1 = c := by
  rw [cell_create]
  exact if_pos rfl

theorem cell_create_of_alive (h : fs.Alive id) : (fs.create c).2.cell id = fs.cell id := by
  have hlt := lt_of_cell h
  rw [cell_create, if_neg (by omega)]

theorem length_create : (fs.create c).2.cells.length = fs.cells.length + 1 := by
  simp [create]

theorem Alive.create (h : fs.Alive id) : (fs.create c).2.Alive id := by
  rw [Alive, cell_create_of_alive h]
  exact h

theorem Holds.create {holder : FutureId} (h : fs.Holds holder id) :
    (fs.create c).2.Holds holder id := by
  have halive : fs.Alive holder := by
    intro hc
    simp [Holds, hc] at h
  rw [Holds, cell_create_of_alive halive]
  exact h

/-- The handles inside a new future are those it was made with. -/
theorem holds_create {holder : FutureId} (h : (fs.create c).2.Holds holder id) :
    id ∈ c.handles ∨ fs.Holds holder id := by
  rw [Holds, cell_create] at h
  split at h
  · exact .inl h
  · exact .inr h

theorem Closed.create (h : fs.Closed) (hc : ∀ id ∈ c.handles, fs.Alive id) :
    (fs.create c).2.Closed := by
  intro holder id hh
  rcases holds_create hh with hh | hh
  · exact (hc id hh).create
  · exact (h holder id hh).create

/-- A new future cannot be on a circle, since nothing holds it yet. -/
theorem Untangled.create (ht : fs.Untangled) (h : fs.Closed) (hc : ∀ id ∈ c.handles, fs.Alive id) :
    (fs.create c).2.Untangled := by
  have hlt : ∀ {a b}, (fs.create c).2.Holds a b → b.index < fs.cells.length := by
    intro a b hab
    rcases holds_create hab with hb | hb
    · exact lt_of_cell (hc b hb)
    · exact lt_of_cell (h a b hb)
  have hold : ∀ {a b}, TransGen (fs.create c).2.Holds a b → a.index < fs.cells.length →
      TransGen fs.Holds a b := by
    intro a b hab ha
    induction hab with
    | @single b hab =>
      rw [Holds, cell_create, if_neg (by omega)] at hab
      exact .single hab
    | @tail b b' hab hbb ih =>
      have hb : b.index < fs.cells.length := by
        cases hab with
        | single hb => exact hlt hb
        | tail _ hb => exact hlt hb
      rw [Holds, cell_create, if_neg (by omega)] at hbb
      exact ih.tail hbb
  intro a haa
  have ha : a.index < fs.cells.length := by
    cases haa with
    | single ha => exact hlt ha
    | tail _ ha => exact hlt ha
  exact ht a (hold haa ha)

/-! ## Several new futures -/

/-- Some futures were made, each holding only handles to futures that were there. -/
inductive Makes (fs : Futures) : Futures → Prop
  | refl : Makes fs fs
  | create {fs' : Futures} {c : Cell} : Makes fs fs' → c.Made →
      (∀ id ∈ c.handles, fs'.Alive id) → Makes fs (fs'.create c).2

theorem Makes.trans {fs'' : Futures} (h : fs.Makes fs') (h' : fs'.Makes fs'') : fs.Makes fs'' := by
  induction h' with
  | refl => exact h
  | create _ hmade hc ih => exact .create ih hmade hc

theorem Makes.length_le (h : fs.Makes fs') : fs.cells.length ≤ fs'.cells.length := by
  induction h with
  | refl => exact Nat.le_refl _
  | create _ _ _ ih =>
    rw [length_create]
    omega

theorem Makes.cell_eq (h : fs.Makes fs') (hlt : id.index < fs.cells.length) :
    fs'.cell id = fs.cell id := by
  induction h with
  | refl => rfl
  | create hm _ _ ih =>
    have hle := hm.length_le
    rw [cell_create, if_neg (by omega), ih]

theorem Makes.alive (h : fs.Makes fs') (ha : fs.Alive id) : fs'.Alive id := by
  rw [Alive, h.cell_eq (lt_of_cell ha)]
  exact ha

theorem Makes.keeps (h : fs.Makes fs') (hv : fs.Keeps v) : fs'.Keeps v :=
  fun id hid => h.alive (hv id hid)

theorem Makes.holds {holder : FutureId} (h : fs.Makes fs') (hh : fs.Holds holder id) :
    fs'.Holds holder id := by
  induction h with
  | refl => exact hh
  | create _ _ _ ih => exact ih.create

theorem Makes.closed (h : fs.Makes fs') (hc : fs.Closed) : fs'.Closed := by
  induction h with
  | refl => exact hc
  | create _ _ hmem ih => exact ih.create hmem

/-- Making futures makes no circles. -/
theorem Makes.untangled (h : fs.Makes fs') (hc : fs.Closed) (ht : fs.Untangled) :
    fs'.Untangled := by
  induction h with
  | refl => exact ht
  | create hm _ hmem ih => exact ih.create (hm.closed hc) hmem

end Futures

/-! ## Expressions -/

/-- What a computation that may stop does, one part after the other. -/
theorem bind_eq_some {σ α β : Type} {x : StateT σ Option α} {f : α → StateT σ Option β} {s : σ}
    {r : β × σ} :
    (x >>= f) s = some r ↔ ∃ a s', x s = some (a, s') ∧ f a s' = some r := by
  show (x s).bind (fun (a, s') => f a s') = some r ↔ _
  rw [Option.bind_eq_some_iff]
  constructor
  · rintro ⟨⟨a, s'⟩, hx, hf⟩
    exact ⟨a, s', hx, hf⟩
  · rintro ⟨a, s', hx, hf⟩
    exact ⟨(a, s'), hx, hf⟩

theorem pure_eq_some {σ α : Type} {a : α} {s : σ} {r : α × σ} :
    (pure a : StateT σ Option α) s = some r ↔ (a, s) = r :=
  Option.some_inj

namespace Expression

variable {lookup? : String → Option Value} {fs fs' : Futures}

theorem create_makes {c : Cell} {v : Value} (h : evaluate.create c fs = some (v, fs'))
    (hmade : c.Made) (hc : ∀ id ∈ c.handles, fs.Alive id) : fs.Makes fs' ∧ fs'.Keeps v := by
  obtain ⟨rfl, rfl⟩ := Prod.mk.inj (Option.some.inj h)
  refine ⟨.create .refl hmade hc, fun id hid => ?_⟩
  have hnew : (fs.create c).2.Alive (fs.create c).1 := by
    rw [Futures.Alive, Futures.cell_create_self]
    exact hmade.ne_released
  rwa [Value.mem_handles_future.1 hid]

mutual

/-- Evaluating an expression makes futures, and the value leads to no released one. -/
theorem evaluate_makes (e : Expression) {fs fs' : Futures} {v : Value}
    (hvars : ∀ name v, lookup? name = some v → fs.Keeps v)
    (h : evaluate lookup? e fs = some (v, fs')) : fs.Makes fs' ∧ fs'.Keeps v := by
  match e with
  | .constant c plain =>
    obtain ⟨rfl, rfl⟩ := Prod.mk.inj (pure_eq_some.1 h)
    exact ⟨.refl, fun id hid => by simp [plain] at hid⟩
  | .list items =>
    obtain ⟨vs, fs₁, hvs, h⟩ := bind_eq_some.1 h
    obtain ⟨rfl, rfl⟩ := Prod.mk.inj (pure_eq_some.1 h)
    obtain ⟨hm, hk⟩ := evaluateItems_makes items hvars hvs
    refine ⟨hm, fun id hid => ?_⟩
    obtain ⟨v, hv, hid⟩ := Value.mem_handles_list.1 hid
    exact hk v hv id hid
  | .mapping entries =>
    obtain ⟨kvs, fs₁, hvs, h⟩ := bind_eq_some.1 h
    obtain ⟨rfl, rfl⟩ := Prod.mk.inj (pure_eq_some.1 h)
    obtain ⟨hm, hk⟩ := evaluateEntries_makes entries hvars hvs
    refine ⟨hm, fun id hid => ?_⟩
    obtain ⟨entry, he, hid⟩ := Value.mem_handles_mapping.1 hid
    exact hk entry (Entries.mem_ofList he) id hid
  | .variable name =>
    simp only [evaluate] at h
    cases hv : lookup? name with
    | none =>
      rw [hv] at h
      cases h
    | some w =>
      rw [hv] at h
      obtain ⟨rfl, rfl⟩ := Prod.mk.inj (pure_eq_some.1 h)
      exact ⟨.refl, hvars name w hv⟩
  | .abandoned => exact create_makes h .abandoned (by simp)
  | .delivered content =>
    obtain ⟨w, fs₁, hw, h⟩ := bind_eq_some.1 h
    obtain ⟨hm, hk⟩ := evaluate_makes content hvars hw
    obtain ⟨hm', hk'⟩ := create_makes h (.delivered w) hk
    exact ⟨hm.trans hm', hk'⟩
  | .ready content =>
    obtain ⟨w, fs₁, hw, h⟩ := bind_eq_some.1 h
    obtain ⟨hm, hk⟩ := evaluate_makes content hvars hw
    obtain ⟨hm', hk'⟩ := create_makes h (.resolved w) hk
    exact ⟨hm.trans hm', hk'⟩

/-- The same for several expressions. -/
theorem evaluateItems_makes (es : List Expression) {fs fs' : Futures} {vs : List Value}
    (hvars : ∀ name v, lookup? name = some v → fs.Keeps v)
    (h : evaluateItems lookup? es fs = some (vs, fs')) :
    fs.Makes fs' ∧ ∀ v ∈ vs, fs'.Keeps v := by
  match es with
  | [] =>
    obtain ⟨rfl, rfl⟩ := Prod.mk.inj (pure_eq_some.1 h)
    exact ⟨.refl, by simp⟩
  | e :: rest =>
    obtain ⟨v, fs₁, hv, h⟩ := bind_eq_some.1 h
    obtain ⟨vs', fs₂, hvs, h⟩ := bind_eq_some.1 h
    obtain ⟨rfl, rfl⟩ := Prod.mk.inj (pure_eq_some.1 h)
    obtain ⟨hm, hk⟩ := evaluate_makes e hvars hv
    obtain ⟨hm', hk'⟩ := evaluateItems_makes rest (fun name w hw => hm.keeps (hvars name w hw)) hvs
    refine ⟨hm.trans hm', fun w hw => ?_⟩
    rcases List.mem_cons.1 hw with rfl | hw
    · exact hm'.keeps hk
    · exact hk' w hw

/-- The same for entries. -/
theorem evaluateEntries_makes (es : List (String × Expression)) {fs fs' : Futures}
    {kvs : List (String × Value)} (hvars : ∀ name v, lookup? name = some v → fs.Keeps v)
    (h : evaluateEntries lookup? es fs = some (kvs, fs')) :
    fs.Makes fs' ∧ ∀ entry ∈ kvs, fs'.Keeps entry.2 := by
  match es with
  | [] =>
    obtain ⟨rfl, rfl⟩ := Prod.mk.inj (pure_eq_some.1 h)
    exact ⟨.refl, by simp⟩
  | (k, e) :: rest =>
    obtain ⟨v, fs₁, hv, h⟩ := bind_eq_some.1 h
    obtain ⟨kvs', fs₂, hvs, h⟩ := bind_eq_some.1 h
    obtain ⟨rfl, rfl⟩ := Prod.mk.inj (pure_eq_some.1 h)
    obtain ⟨hm, hk⟩ := evaluate_makes e hvars hv
    obtain ⟨hm', hk'⟩ :=
      evaluateEntries_makes rest (fun name w hw => hm.keeps (hvars name w hw)) hvs
    refine ⟨hm.trans hm', fun entry he => ?_⟩
    rcases List.mem_cons.1 he with rfl | he
    · exact hm'.keeps hk
    · exact hk' entry he

end

end Expression

end ScriptValues
