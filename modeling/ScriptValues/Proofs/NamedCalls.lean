import ScriptValues.Proofs.Calls

/-!
# Builtins by name

A name is bound to one builtin. If that builtin only computes, and renders no argument in which the
world could show, its result depends on the arguments alone.

* `Builtin.Gives`: the result that a name has in every world.
* `Builtin.Decides`: the condition under which a name answers true.
* `Builtin.gives_of_run`: what a computation answers is what its name gives.
-/

namespace ScriptValues

namespace Builtin

variable {name : String} {values : List Value} {r r' : Result Value}

/-- The builtin of a name has this result in every world, which it leaves as it is. -/
def Gives (name : String) (values : List Value) (r : Result Value) : Prop :=
  ∃ b, lookup? name = some b ∧ ∀ w, b.tryCall values w = (r, w)

/-- The builtin of a name answers, in every world alike. -/
def Succeeds (name : String) (values : List Value) : Prop := ∃ v, Gives name values (.ok v)

/-- The builtin of a name answers true or false, and true exactly under a condition. -/
def Decides (name : String) (values : List Value) (p : Prop) : Prop :=
  ∃ b, Gives name values (.ok (.bool b)) ∧ (b = true ↔ p)

theorem Gives.unique (h : Gives name values r) (h' : Gives name values r') : r = r' := by
  obtain ⟨b, hb, hr⟩ := h
  obtain ⟨b', hb', hr'⟩ := h'
  obtain rfl : b = b' := Option.some.inj (hb.symm.trans hb')
  exact (Prod.mk.inj ((hr .bare).symm.trans (hr' .bare))).1

/-- A call that answers under a condition, and fails without it, succeeds under it only. -/
theorem succeeds_iff {p : Prop} {halt : Halt} (hok : p → Succeeds name values)
    (hfail : ¬ p → Gives name values (.error halt)) : Succeeds name values ↔ p := by
  constructor
  · rintro ⟨v, hv⟩
    by_cases hp : p
    · exact hp
    · cases hv.unique (hfail hp)
  · exact hok

/-- Such a call fails without the condition only. -/
theorem fails_iff {p : Prop} {halt : Halt} (hok : p → Succeeds name values)
    (hfail : ¬ p → Gives name values (.error halt)) : Gives name values (.error halt) ↔ ¬ p := by
  constructor
  · intro h hp
    obtain ⟨v, hv⟩ := hok hp
    cases h.unique hv
  · exact hfail

/-- What is answered for one condition is answered for an equivalent one. -/
theorem Decides.congr {p q : Prop} (h : Decides name values p) (hpq : p ↔ q) :
    Decides name values q := by
  obtain ⟨b, hb, hp⟩ := h
  exact ⟨b, hb, hp.trans hpq⟩

theorem gives_of_run {c : Computation} (hname : lookup? name = some ⟨name, .compute c⟩)
    (harity : c.arity.accepts values.length)
    (hrun : ∀ resolved, c.run resolved ⟨name, values⟩ = r) : Gives name values r := by
  refine ⟨_, hname, fun w => ?_⟩
  have haccepts : Builtin.arity ⟨name, .compute c⟩ |>.accepts values.length := harity
  rw [tryCall_of_accepts haccepts]
  simp only [Operation.run, Step.bind_run, Step.get_run, Step.ofResult_run, hrun]

end Builtin

end ScriptValues
