import ScriptValues.Coercion

/-!
# What coercion does to a pair

Each operand is changed for the sake of the one next to it, or not at all. Never are both changed,
for an operand that is changed takes the kind of the other one, and of two operands of one kind none
is changed. All laws of coercion come from this.

* `Value.beside`: what an operand becomes next to another one.
* `coerce_eq`: a pair is coerced operand by operand.
* `Value.beside_eq_or`: an operand stays as it is, or takes the kind of the other, which stays.
* `coercionLaws`: coercing twice is coercing once, the flag tells whether a kind changed, the order
  of the operands does not matter, and only `+` makes texts.
-/

namespace ScriptValues

variable {operator : BinaryOperator} {v other left right : Value}

/-! ## One operand -/

namespace Value

/-- What an operand becomes next to another one: next to a double an integer becomes a double, and
next to a text `+` renders what has a rendering of its own. -/
def beside (v : Value) (operator : BinaryOperator) (other : Value) : Value :=
  match v, other with
  | .int n, .float _ => .float (Double.ofInt n.toInt)
  | v, .string _ => if operator = .add then (v.scalarText?.map string).getD v else v
  | v, _ => v

theorem beside_string (v : Value) (operator : BinaryOperator) (s : String) :
    v.beside operator (.string s) =
      if operator = .add then (v.scalarText?.map string).getD v else v := by
  cases v <;> rfl

/-- An operand stays as it is next to what is no text, an integer not next to a double. -/
theorem beside_of_not (hnumbers : ∀ n x, v = int n → other = float x → False)
    (htext : ∀ s, other = string s → False) : v.beside operator other = v := by
  cases other with
  | float x =>
    cases v with
    | int n => exact (hnumbers n x rfl rfl).elim
    | _ => rfl
  | string s => exact (htext s rfl).elim
  | _ => cases v <;> rfl

/-- A text stays as it is next to anything. -/
theorem string_beside (s : String) (operator : BinaryOperator) (other : Value) :
    (string s).beside operator other = string s := by
  cases other with
  | string t => exact (beside_string _ _ _).trans (ite_self _)
  | _ => rfl

@[simp]
theorem kind_string (s : String) : (string s).kind = .string := rfl

theorem kind_ne_string {text : String} (h : v.scalarText? = some text) : v.kind ≠ .string := by
  cases v <;> simp_all [scalarText?, kind]

/-- An operand stays as it is, or it takes the kind of the other one, which then stays. -/
theorem beside_eq_or (v : Value) (operator : BinaryOperator) (other : Value) :
    v.beside operator other = v ∨ v.kind ≠ other.kind ∧
      (v.beside operator other).kind = other.kind ∧ other.beside operator v = other := by
  cases other with
  | float x =>
    cases v with
    | int n => exact .inr ⟨by simp [kind], by simp [beside, kind], rfl⟩
    | _ => exact .inl rfl
  | string s =>
    rw [beside_string]
    split
    · cases htext : v.scalarText? with
      | none => exact .inl rfl
      | some text => exact .inr ⟨kind_ne_string htext, by simp, string_beside s operator v⟩
    · exact .inl rfl
  | _ => exact .inl (beside_of_not (by simp) (by simp))

/-- Next to an operand of its own kind, an operand stays as it is. -/
theorem beside_of_kind_eq (h : v.kind = other.kind) : v.beside operator other = v := by
  rcases beside_eq_or v operator other with hkept | ⟨hne, -, -⟩
  · exact hkept
  · exact absurd h hne

/-- An operand that keeps its kind stays as it is. -/
theorem beside_eq_self_iff :
    v.beside operator other = v ↔ (v.beside operator other).kind = v.kind := by
  constructor
  · exact congrArg kind
  · intro hkind
    rcases beside_eq_or v operator other with hkept | ⟨hne, hkind', -⟩
    · exact hkept
    · exact absurd (hkind.symm.trans hkind') hne

/-- Two coerced operands stay as they are next to each other. -/
theorem beside_beside (v : Value) (operator : BinaryOperator) (other : Value) :
    (v.beside operator other).beside operator (other.beside operator v) =
      v.beside operator other := by
  rcases beside_eq_or v operator other with hv | ⟨-, hkind, hother⟩
  · rcases beside_eq_or other operator v with hother | ⟨-, hkind, -⟩
    · rw [hother, hv, hv]
    · rw [hv]
      exact beside_of_kind_eq hkind.symm
  · rw [hother]
    exact beside_of_kind_eq hkind

/-- Without `+`, no operand becomes a text and no text becomes anything else. -/
theorem beside_eq_string_iff (h : operator ≠ .add) {s : String} :
    v.beside operator other = .string s ↔ v = .string s := by
  cases other with
  | float x => cases v <;> simp [beside]
  | string t => rw [beside_string, if_neg h]
  | _ => rw [beside_of_not (by simp) (by simp)]

end Value

/-! ## A pair -/

open Value

/-- A pair is coerced operand by operand, and the flag tells whether one changed its kind. -/
theorem coerce_eq (left right : Value) (operator : BinaryOperator) :
    coerce left right operator =
      ⟨left.beside operator right, right.beside operator left,
        decide ((left.beside operator right).kind ≠ left.kind ∨
          (right.beside operator left).kind ≠ right.kind)⟩ := by
  unfold coerce
  split
  · rfl
  · rfl
  · next s other _ =>
    rw [string_beside, beside_string]
    cases htext : right.scalarText? with
    | none => simp
    | some text =>
      have hkind : Kind.string ≠ right.kind := (kind_ne_string htext).symm
      by_cases hadd : operator = .add <;> simp [hadd, hkind]
  · next s _ =>
    rw [string_beside, beside_string]
    cases htext : left.scalarText? with
    | none => simp
    | some text =>
      have hkind : Kind.string ≠ left.kind := (kind_ne_string htext).symm
      by_cases hadd : operator = .add <;> simp [hadd, hkind]
  · next hleft hright hfirst hsecond =>
    rw [beside_of_not hfirst hright, beside_of_not (fun n x h h' => hsecond x n h' h) hleft]
    simp

/-! ## The laws -/

structure CoercionLaws (operator : BinaryOperator) (left right : Value) (c : Coerced) : Prop where
  /-- Each operand becomes what it is next to the other. -/
  operandwise : c.left = left.beside operator right ∧ c.right = right.beside operator left
  /-- Coercing what was coerced changes nothing, and says so. -/
  settled : coerce c.left c.right operator = ⟨c.left, c.right, false⟩
  /-- The flag is set exactly if an operand changed its kind. -/
  flag : c.changed = true ↔ c.left.kind ≠ left.kind ∨ c.right.kind ≠ right.kind
  /-- Then it is one of the two that did, the other is as it was, and now they are of one kind. -/
  changed : c.changed = true → (c.left.kind ≠ left.kind ∧ c.right = right ∨
    c.left = left ∧ c.right.kind ≠ right.kind) ∧ c.left.kind = c.right.kind
  /-- Otherwise both are as they were. -/
  unchanged : c.changed = false → c.left = left ∧ c.right = right
  /-- The order of the operands does not matter. -/
  symmetric : coerce right left operator = ⟨c.right, c.left, c.changed⟩
  /-- Only `+` makes texts of operands, and nothing makes something else of a text. -/
  texts : operator ≠ .add → ∀ s, (c.left = .string s ↔ left = .string s) ∧
    (c.right = .string s ↔ right = .string s)

theorem coercionLaws (operator : BinaryOperator) (left right : Value) :
    CoercionLaws operator left right (coerce left right operator) := by
  rw [coerce_eq]
  constructor
  · exact ⟨rfl, rfl⟩
  · simp only [coerce_eq, beside_beside, ne_eq, not_true_eq_false, or_self, decide_false]
  · exact decide_eq_true_iff
  · intro hchanged
    rcases of_decide_eq_true hchanged with hleft | hright
    · rcases beside_eq_or left operator right with hkept | ⟨-, hkind, hright⟩
      · exact absurd (congrArg kind hkept) hleft
      · exact ⟨.inl ⟨hleft, hright⟩, by rw [hright, hkind]⟩
    · rcases beside_eq_or right operator left with hkept | ⟨-, hkind, hleft⟩
      · exact absurd (congrArg kind hkept) hright
      · exact ⟨.inr ⟨hleft, hright⟩, by rw [hleft, hkind]⟩
  · intro hkept
    obtain ⟨hleft, hright⟩ := not_or.1 (of_decide_eq_false hkept)
    exact ⟨beside_eq_self_iff.2 (Decidable.not_not.1 hleft),
      beside_eq_self_iff.2 (Decidable.not_not.1 hright)⟩
  · rw [coerce_eq]
    simp only [or_comm]
  · intro h s
    exact ⟨beside_eq_string_iff h, beside_eq_string_iff h⟩

end ScriptValues
