import ScriptValues.Proofs.Calls
import ScriptValues.Proofs.CheckedIntegers
import ScriptValues.Proofs.DoubleBits

/-!
# What the binary operators answer

A call of an operator has one of four outcomes, by the kinds of its operands: two integers are
computed exactly or fail, numbers of which one is a double give a double or fail at a zero divisor,
`Add` joins renderings, and every other pair is a type failure. The event of a coercion is reported
exactly when two operands of different kinds are supported, whatever the outcome is.

* `Arithmetic.Supports`: the pairs that are no type failure.
* `Arithmetic.Answers`: the laws of an outcome.
* `Arithmetic.answers_of_call`: every call obeys them.
-/

namespace ScriptValues

namespace BinaryOperator

/-- The builtin that computes an operator. -/
def builtin : BinaryOperator → Builtin
  | .add => ⟨"Add", .arithmetic .add⟩
  | .subtract => ⟨"Subtract", .arithmetic .subtract⟩
  | .multiply => ⟨"Multiply", .arithmetic .multiply⟩
  | .divide => ⟨"Divide", .arithmetic .divide⟩
  | .remainder => ⟨"mod", .arithmetic .remainder⟩
  | .power => ⟨"Power", .arithmetic .power⟩

theorem builtin_operation (operator : BinaryOperator) :
    operator.builtin.operation = .arithmetic operator := by
  cases operator <;> rfl

def exact : BinaryOperator → Int → Int → Int
  | .add, x, y => x + y
  | .subtract, x, y => x - y
  | .multiply, x, y => x * y
  | .divide, x, y => x.tdiv y
  | .remainder, x, y => x.tmod y
  | .power, x, y => x ^ y.toNat

def onDoubles : BinaryOperator → Float → Float → Float
  | .add, x, y => x + y
  | .subtract, x, y => x - y
  | .multiply, x, y => x * y
  | .divide, x, y => x / y
  | .remainder, x, y => Double.remainder x y
  | .power, x, y => Float.pow x y

/-- How an operator fails at a zero divisor, if it divides. -/
def zeroDivisor? : BinaryOperator → Option Cause
  | .divide => some .divisionByZero
  | .remainder => some .moduloByZero
  | _ => none

/-- The integers that an operator takes on its right: a divisor is not zero, and an exponent is not
negative. -/
def Takes (operator : BinaryOperator) (y : Int) : Prop :=
  (operator.zeroDivisor?.isSome → y ≠ 0) ∧ (operator = .power → 0 ≤ y)

/-- The integers that overflow although the result fits: the quotient of a remainder does not fit,
or an exponent is too large to be tried. -/
def Refuses (operator : BinaryOperator) (x y : Int) : Prop :=
  operator = .remainder ∧ ¬ Checked.Fits (x.tdiv y) ∨ operator = .power ∧ Checked.maxExponent < y

end BinaryOperator

namespace Arithmetic

/-- The kinds that `Add` renders next to a String, and String itself. -/
def joinable : List Kind := [.string, .integer, .float, .bool, .null]

/-- `Add` joins the renderings of a String and another value of a joinable kind. -/
def Joins (operator : BinaryOperator) (left right : Value) : Prop :=
  operator = .add ∧
    (left.kind = .string ∧ right.kind ∈ joinable ∨ right.kind = .string ∧ left.kind ∈ joinable)

/-- The pairs of operands that an operator supports. -/
def Supports (operator : BinaryOperator) (left right : Value) : Prop :=
  left.isNumeric ∧ right.isNumeric ∨ Joins operator left right

/-- A zero as a divisor: the integer, or one of the two doubles. -/
def IsZero (v : Value) : Prop :=
  v = .int 0 ∨ ∃ y, v = .float y ∧ (y.toBits.toNat = 0 ∨ y.toBits.toNat = 2 ^ 63)

def fails (operator : BinaryOperator) (cause : Cause) : Result Value :=
  .error (.failure ⟨operator.builtin.name, cause⟩)

/-- The laws of what a call of an operator answers. -/
structure Answers (operator : BinaryOperator) (left right : Value) (r : Result Value) : Prop where
  /-- Exactly the pairs that are not supported are type failures. -/
  type_failure : (∃ position expected actual,
    r = fails operator (.type position expected actual)) ↔ ¬ Supports operator left right
  /-- A type failure blames the first operand whose kind is not among those expected. -/
  blamed {position : Nat} {expected : Expectation} {actual : Kind} :
    r = fails operator (.type position expected actual) → expected = .kinds (accepted operator) ∧
      (position = 1 ∧ actual = left.kind ∧ left.kind ∉ accepted operator ∨
        position = 2 ∧ actual = right.kind ∧ right.kind ∉ accepted operator ∧
          left.kind ∈ accepted operator)
  /-- Two integers give the exact integer or fail. -/
  integer_exact {x y : Int64} {v : Value} : left = .int x → right = .int y → r = .ok v →
    ∃ n : Int64, v = .int n ∧ n.toInt = operator.exact x.toInt y.toInt
  /-- They overflow if the exact result does not fit. -/
  integer_overflow {x y : Int64} : left = .int x → right = .int y → operator.Takes y.toInt →
    ¬ Checked.Fits (operator.exact x.toInt y.toInt) → r = fails operator .overflow
  /-- If it fits they give it, except where the operator refuses. -/
  integer_answers {x y : Int64} : left = .int x → right = .int y → operator.Takes y.toInt →
    Checked.Fits (operator.exact x.toInt y.toInt) →
      (operator.Refuses x.toInt y.toInt → r = fails operator .overflow) ∧
      (¬ operator.Refuses x.toInt y.toInt → ∃ n, r = .ok (.int n))
  /-- A negative exponent of an integer is outside the domain. -/
  negative_exponent {x y : Int64} : left = .int x → right = .int y → operator = .power →
    y.toInt < 0 → r = fails operator
      (.domain ("negative exponent " ++ integerText y ++ " requires a Float operand"))
  /-- A zero divisor of any kind fails next to any number. -/
  zero_divisor {cause : Cause} : left.isNumeric → IsZero right →
    operator.zeroDivisor? = some cause → r = fails operator cause
  /-- Numbers of which one is a double give a double in every other case. -/
  double {x y : Float} : left.asFloat? = some x → right.asFloat? = some y →
    (left.kind = .float ∨ right.kind = .float) → (operator.zeroDivisor?.isSome → ¬ IsZero right) →
      r = .ok (.float (operator.onDoubles x y))
  /-- Texts are joined in order. -/
  text (resolved : FutureId → Bool) : Joins operator left right →
    r = .ok (.string (left.inspect resolved ++ right.inspect resolved))

/-! ## Coercion, by the kinds of the operands -/

variable {operator : BinaryOperator} {left right : Value} {a : Arguments}

theorem coerce_doubles {x y : Float} (hl : left.asFloat? = some x) (hr : right.asFloat? = some y)
    (hk : left.kind = .float ∨ right.kind = .float) :
    coerce left right operator = ⟨.float x, .float y, decide (left.kind ≠ right.kind)⟩ := by
  cases left with
  | int m =>
    obtain rfl := Option.some.inj hl
    cases right with
    | int n => rcases hk with hk | hk <;> cases hk
    | float z =>
      obtain rfl := Option.some.inj hr
      rfl
    | _ => cases hr
  | float z =>
    obtain rfl := Option.some.inj hl
    cases right with
    | int n =>
      obtain rfl := Option.some.inj hr
      rfl
    | float z' =>
      obtain rfl := Option.some.inj hr
      rfl
    | _ => cases hr
  | _ => cases hl

/-- The kinds that can be joined are those with a rendering of their own, and texts. -/
theorem kind_mem_joinable {v : Value} (h : v.kind ∈ joinable) :
    (∃ s, v = .string s) ∨ v.kind ≠ .string ∧
      ∀ resolved, v.scalarText? = some (v.inspect resolved) := by
  cases v with
  | string s => exact .inl ⟨s, rfl⟩
  | null => exact .inr ⟨by decide, fun _ => rfl⟩
  | bool b => exact .inr ⟨by simp [Value.kind], fun _ => rfl⟩
  | int n => exact .inr ⟨by simp [Value.kind], fun _ => rfl⟩
  | float x => exact .inr ⟨by simp [Value.kind], fun _ => rfl⟩
  | _ => simp [Value.kind, joinable] at h

theorem kind_of_scalarText {v : Value} {text : String} (h : v.scalarText? = some text) :
    v.kind ∈ joinable := by
  cases v with
  | null => decide
  | bool b => simp [Value.kind, joinable]
  | int n => simp [Value.kind, joinable]
  | float x => simp [Value.kind, joinable]
  | _ => cases h

theorem eq_string_of_kind {v : Value} (h : v.kind = .string) : ∃ s, v = .string s := by
  cases v with
  | string s => exact ⟨s, rfl⟩
  | _ => cases h

theorem coerce_texts (h : Joins operator left right) (resolved : FutureId → Bool) :
    coerce left right operator = ⟨.string (left.inspect resolved), .string (right.inspect resolved),
      decide (left.kind ≠ right.kind)⟩ := by
  obtain ⟨rfl, ⟨hl, hr⟩ | ⟨hr, hl⟩⟩ := h
  · obtain ⟨s, rfl⟩ := eq_string_of_kind hl
    rcases kind_mem_joinable hr with ⟨t, rfl⟩ | ⟨hne, htext⟩
    · rfl
    · have hchanged : decide (Value.kind (.string s) ≠ right.kind) = true :=
        decide_eq_true (Ne.symm hne)
      rw [coerce, htext resolved, hchanged]
      rfl
  · obtain ⟨s, rfl⟩ := eq_string_of_kind hr
    rcases kind_mem_joinable hl with ⟨t, rfl⟩ | ⟨hne, htext⟩
    · rfl
    · have hchanged : decide (left.kind ≠ Value.kind (.string s)) = true := decide_eq_true hne
      rw [hchanged]
      cases left <;> first | exact absurd rfl hne | rfl | cases htext resolved

/-- A pair that is not supported passes through untouched. -/
theorem coerce_unsupported (h : ¬ Supports operator left right) :
    coerce left right operator = ⟨left, right, false⟩ := by
  unfold coerce
  split
  · exact absurd (.inl ⟨rfl, rfl⟩) h
  · exact absurd (.inl ⟨rfl, rfl⟩) h
  · next s =>
    split
    · next text htext =>
      split
      · next hadd =>
        exact absurd (.inr ⟨hadd, .inl ⟨rfl, kind_of_scalarText htext⟩⟩) h
      · rfl
    · rfl
  · next s _ =>
    split
    · next text htext =>
      split
      · next hadd =>
        exact absurd (.inr ⟨hadd, .inr ⟨rfl, kind_of_scalarText htext⟩⟩) h
      · rfl
    · rfl
  · rfl

/-- A pair that is not supported is blamed. -/
theorem apply_unsupported (h : ¬ Supports operator left right) (changed : Bool) :
    apply a operator ⟨left, right, changed⟩ = blame a operator left := by
  unfold apply
  simp only
  split
  · exact absurd (.inl ⟨rfl, rfl⟩) h
  · exact absurd (.inl ⟨rfl, rfl⟩) h
  · split
    · next hadd => exact absurd (.inr ⟨hadd, .inl ⟨rfl, by simp [Value.kind, joinable]⟩⟩) h
    · rfl
  · rfl

/-! ## The four outcomes -/

theorem fails_inj {cause cause' : Cause} (h : fails operator cause = fails operator cause') :
    cause = cause' := by
  unfold fails at h
  injection h with h
  injection h with h
  injection h

theorem fails_ne_ok {cause : Cause} {v : Value} : fails operator cause ≠ .ok v := by
  unfold fails
  exact fun h => nomatch h

theorem mem_accepted {k : Kind} :
    k ∈ accepted operator ↔ k = .integer ∨ k = .float ∨ operator = .add ∧ k = .string := by
  cases operator <;> simp [accepted]

theorem isNumeric_iff {v : Value} : v.isNumeric ↔ v.kind = .integer ∨ v.kind = .float := by
  simp [Value.isNumeric]

theorem isNumeric_of_asFloat {v : Value} {x : Float} (h : v.asFloat? = some x) : v.isNumeric := by
  cases v with
  | int n => rfl
  | float y => rfl
  | _ => cases h

theorem isNumeric_of_isZero {v : Value} (h : IsZero v) : v.isNumeric := by
  rcases h with rfl | ⟨y, rfl, -⟩ <;> rfl

/-- Two accepted operands are always supported. -/
theorem supports_of_accepted (hl : left.kind ∈ accepted operator)
    (hr : right.kind ∈ accepted operator) : Supports operator left right := by
  rw [mem_accepted] at hl hr
  rcases hl with hl | hl | ⟨hadd, hl⟩
  · rcases hr with hr | hr | ⟨hadd, hr⟩
    · exact .inl ⟨isNumeric_iff.2 (.inl hl), isNumeric_iff.2 (.inl hr)⟩
    · exact .inl ⟨isNumeric_iff.2 (.inl hl), isNumeric_iff.2 (.inr hr)⟩
    · exact .inr ⟨hadd, .inr ⟨hr, by simp [hl, joinable]⟩⟩
  · rcases hr with hr | hr | ⟨hadd, hr⟩
    · exact .inl ⟨isNumeric_iff.2 (.inr hl), isNumeric_iff.2 (.inl hr)⟩
    · exact .inl ⟨isNumeric_iff.2 (.inr hl), isNumeric_iff.2 (.inr hr)⟩
    · exact .inr ⟨hadd, .inr ⟨hr, by simp [hl, joinable]⟩⟩
  · refine .inr ⟨hadd, .inl ⟨hl, ?_⟩⟩
    rcases hr with hr | hr | ⟨-, hr⟩ <;> simp [hr, joinable]

theorem blame_eq (operator : BinaryOperator) (left right : Value) :
    blame ⟨operator.builtin.name, [left, right]⟩ operator left =
      if left.kind ∈ accepted operator
      then fails operator (.type 2 (.kinds (accepted operator)) right.kind)
      else fails operator (.type 1 (.kinds (accepted operator)) left.kind) := rfl

/-- A pair that is not supported is a type failure of the first operand that is not accepted. -/
theorem answers_of_blame (h : ¬ Supports operator left right) :
    Answers operator left right (blame ⟨operator.builtin.name, [left, right]⟩ operator left) where
  type_failure := by
    refine ⟨fun _ => h, fun _ => ?_⟩
    rw [blame_eq]
    split
    · exact ⟨_, _, _, rfl⟩
    · exact ⟨_, _, _, rfl⟩
  blamed := by
    intro position expected actual hr
    rw [blame_eq] at hr
    split at hr
    · next hl =>
      have hright : right.kind ∉ accepted operator := fun hr => h (supports_of_accepted hl hr)
      have hcause := fails_inj hr
      injection hcause with hposition hexpected hactual
      exact ⟨hexpected.symm, .inr ⟨hposition.symm, hactual.symm, hright, hl⟩⟩
    · next hl =>
      have hcause := fails_inj hr
      injection hcause with hposition hexpected hactual
      exact ⟨hexpected.symm, .inl ⟨hposition.symm, hactual.symm, hl⟩⟩
  integer_exact := by
    rintro x y v rfl rfl
    exact absurd (.inl ⟨rfl, rfl⟩) h
  integer_overflow := by
    rintro x y rfl rfl
    exact absurd (.inl ⟨rfl, rfl⟩) h
  integer_answers := by
    rintro x y rfl rfl
    exact absurd (.inl ⟨rfl, rfl⟩) h
  negative_exponent := by
    rintro x y rfl rfl
    exact absurd (.inl ⟨rfl, rfl⟩) h
  zero_divisor hl hr := absurd (.inl ⟨hl, isNumeric_of_isZero hr⟩) h
  double hl hr := absurd (.inl ⟨isNumeric_of_asFloat hl, isNumeric_of_asFloat hr⟩) h
  text _ hj := absurd (.inr hj) h

theorem Joins.not_numeric (h : Joins operator left right) :
    ¬ (left.isNumeric ∧ right.isNumeric) := by
  have hstring : left.kind = .string ∨ right.kind = .string := h.2.imp And.left And.left
  rw [isNumeric_iff, isNumeric_iff]
  rintro ⟨hl, hr⟩
  rcases hstring with hs | hs
  · rw [hs] at hl
    rcases hl with hl | hl <;> cases hl
  · rw [hs] at hr
    rcases hr with hr | hr <;> cases hr

/-- Two texts, or a text and what is rendered next to it, are joined. -/
theorem answers_of_joins {r : Result Value} (h : Joins operator left right)
    (hr : ∀ resolved, r = .ok (.string (left.inspect resolved ++ right.inspect resolved))) :
    Answers operator left right r := by
  have hnumeric := h.not_numeric
  have hok : ∀ cause, r ≠ fails operator cause := by
    intro cause hc
    rw [hr fun _ => false] at hc
    exact fails_ne_ok hc.symm
  refine ⟨⟨?_, ?_⟩, ?_, ?_, ?_, ?_, ?_, ?_, ?_, fun resolved _ => hr resolved⟩
  · rintro ⟨_, _, _, hc⟩
    exact absurd hc (hok _)
  · exact fun hn => absurd (.inr h) hn
  · exact fun hc => absurd hc (hok _)
  · rintro x y v rfl rfl
    exact absurd ⟨rfl, rfl⟩ hnumeric
  · rintro x y rfl rfl
    exact absurd ⟨rfl, rfl⟩ hnumeric
  · rintro x y rfl rfl
    exact absurd ⟨rfl, rfl⟩ hnumeric
  · rintro x y rfl rfl
    exact absurd ⟨rfl, rfl⟩ hnumeric
  · exact fun hl hr => absurd ⟨hl, isNumeric_of_isZero hr⟩ hnumeric
  · exact fun hl hr => absurd ⟨isNumeric_of_asFloat hl, isNumeric_of_asFloat hr⟩ hnumeric

/-- A divisor counts as zero after the coercion exactly if it was a zero before. -/
theorem isZero_of_asFloat {y : Float} (h : right.asFloat? = some y) :
    Double.isZero y ↔ IsZero right := by
  cases right with
  | int n =>
    obtain rfl := Option.some.inj h
    have hword : Double.IsWord n.toInt := by
      have hlo := n.le_toInt
      have hhi := n.toInt_lt
      unfold Double.IsWord
      omega
    rw [Double.isZero_ofInt hword]
    constructor
    · intro h0
      exact .inl (congrArg Value.int (Int64.toInt_inj.1 h0))
    · rintro (h0 | ⟨z, hz, -⟩)
      · rw [Value.int.inj h0]
        rfl
      · cases hz
  | float z =>
    obtain rfl := Option.some.inj h
    have hlt := Double.toBits_lt z
    rw [Double.isZero_iff]
    constructor
    · intro h0
      exact .inr ⟨z, rfl, by omega⟩
    · rintro (h0 | ⟨z', hz, hbits⟩)
      · cases h0
      · obtain rfl := Value.float.inj hz
        omega
  | _ => cases h

theorem onDoubles_eq (operator : BinaryOperator) (values : List Value) (x y : Float) :
    onDoubles ⟨operator.builtin.name, values⟩ operator x y =
      match operator.zeroDivisor? with
      | some cause =>
        if Double.isZero y then fails operator cause else .ok (.float (operator.onDoubles x y))
      | none => .ok (.float (operator.onDoubles x y)) := by
  cases operator <;> rfl

theorem zeroDivisor_ne_type {cause : Cause} {position : Nat} {expected : Expectation}
    {actual : Kind} (h : operator.zeroDivisor? = some cause) :
    cause ≠ .type position expected actual := by
  rintro rfl
  cases operator <;> cases h

/-- Numbers of which one is a double give a double, or fail at a zero divisor. -/
theorem answers_of_doubles {x y : Float} (hl : left.asFloat? = some x)
    (hr : right.asFloat? = some y) (hk : left.kind = .float ∨ right.kind = .float) :
    Answers operator left right
      (onDoubles ⟨operator.builtin.name, [left, right]⟩ operator x y) := by
  have hnumeric : left.isNumeric ∧ right.isNumeric :=
    ⟨isNumeric_of_asFloat hl, isNumeric_of_asFloat hr⟩
  have hzero := isZero_of_asFloat hr
  have hints : ∀ {m n : Int64}, left = .int m → right = .int n → False := by
    rintro m n rfl rfl
    rcases hk with hk | hk <;> cases hk
  have htype : ∀ position expected actual,
      onDoubles ⟨operator.builtin.name, [left, right]⟩ operator x y ≠
        fails operator (.type position expected actual) := by
    intro position expected actual hc
    rw [onDoubles_eq] at hc
    split at hc
    · next cause hcause =>
      split at hc
      · exact zeroDivisor_ne_type hcause (fails_inj hc)
      · exact fails_ne_ok hc.symm
    · exact fails_ne_ok hc.symm
  refine ⟨⟨?_, ?_⟩, ?_, ?_, ?_, ?_, ?_, ?_, ?_, ?_⟩
  · rintro ⟨_, _, _, hc⟩
    exact absurd hc (htype _ _ _)
  · exact fun hn => absurd (.inl hnumeric) hn
  · exact fun hc => absurd hc (htype _ _ _)
  · exact fun hm hn => (hints hm hn).elim
  · exact fun hm hn => (hints hm hn).elim
  · exact fun hm hn => (hints hm hn).elim
  · exact fun hm hn => (hints hm hn).elim
  · intro cause _ hz hcause
    rw [onDoubles_eq, hcause]
    exact if_pos (hzero.2 hz)
  · intro x' y' hx' hy' _ hz
    rw [hl] at hx'
    rw [hr] at hy'
    obtain rfl := Option.some.inj hx'
    obtain rfl := Option.some.inj hy'
    rw [onDoubles_eq]
    cases hcause : operator.zeroDivisor? with
    | none => rfl
    | some cause => exact if_neg fun h => hz (by rw [hcause]; rfl) (hzero.1 h)
  · exact fun _ hj => absurd hnumeric hj.not_numeric

/-! ## Two integers -/

section Integers

open BinaryOperator

variable {x y : Int64}

/-- The checked result of an operator on the integers that it takes. -/
def checked? (operator : BinaryOperator) (x y : Int64) : Option Int64 :=
  match operator with
  | .add => Checked.add? x y
  | .subtract => Checked.sub? x y
  | .multiply => Checked.mul? x y
  | .divide => Checked.div? x y
  | .remainder => Checked.rem? x y
  | .power => Checked.pow? x y.toInt.toNat

/-- Unless the operator refuses, the checked result is the exact one if that fits. -/
theorem checked_eq (ht : operator.Takes y.toInt) (hr : ¬ operator.Refuses x.toInt y.toInt) :
    checked? operator x y = Checked.ofInt? (operator.exact x.toInt y.toInt) := by
  cases operator with
  | add => rfl
  | subtract => rfl
  | multiply => rfl
  | divide =>
    have hy : y ≠ 0 := fun h => ht.1 rfl (by rw [h]; rfl)
    exact Checked.div_eq hy
  | remainder =>
    have hy : y ≠ 0 := fun h => ht.1 rfl (by rw [h]; rfl)
    have hfits : Checked.Fits (x.toInt.tdiv y.toInt) := by
      apply Classical.byContradiction
      exact fun h => hr (.inl ⟨rfl, h⟩)
    show Checked.rem? x y = _
    rw [Checked.rem_eq hy, if_pos hfits]
    rfl
  | power =>
    have hnonneg := ht.2 rfl
    have hle : y.toInt.toNat ≤ Checked.maxExponent := by
      apply Classical.byContradiction
      intro h
      exact hr (.inr ⟨rfl, by omega⟩)
    exact Checked.pow_eq hle

/-- Where the operator refuses there is no checked result. -/
theorem checked_eq_none (ht : operator.Takes y.toInt) (hr : operator.Refuses x.toInt y.toInt) :
    checked? operator x y = none := by
  rcases hr with ⟨rfl, hfits⟩ | ⟨rfl, hlarge⟩
  · have hy : y ≠ 0 := fun h => ht.1 rfl (by rw [h]; rfl)
    show Checked.rem? x y = none
    rw [Checked.rem_eq hy, if_neg hfits]
  · have hlt : Checked.maxExponent < y.toInt.toNat := by omega
    exact Checked.pow_eq_none hlt

theorem onIntegers_of_takes (ht : operator.Takes y.toInt) (values : List Value) :
    onIntegers ⟨operator.builtin.name, values⟩ operator x y =
      orOverflow ⟨operator.builtin.name, values⟩ (checked? operator x y) := by
  cases operator with
  | add => rfl
  | subtract => rfl
  | multiply => rfl
  | divide => exact if_neg fun h => ht.1 rfl (by rw [h]; rfl)
  | remainder => exact if_neg fun h => ht.1 rfl (by rw [h]; rfl)
  | power =>
    have hnonneg := ht.2 rfl
    have hlt : ¬ y < 0 := by
      rw [Int64.lt_iff_toInt_lt]
      exact Int.not_lt.2 hnonneg
    exact if_neg hlt

theorem onIntegers_of_zero {cause : Cause} (values : List Value)
    (hcause : operator.zeroDivisor? = some cause) :
    onIntegers ⟨operator.builtin.name, values⟩ operator x 0 = fails operator cause := by
  cases operator with
  | divide =>
    obtain rfl := Option.some.inj hcause
    rfl
  | remainder =>
    obtain rfl := Option.some.inj hcause
    rfl
  | _ => cases hcause

theorem onIntegers_of_negative (values : List Value) (hy : y.toInt < 0) :
    onIntegers ⟨power.builtin.name, values⟩ power x y = fails power
      (.domain ("negative exponent " ++ integerText y ++ " requires a Float operand")) :=
  if_pos (Int64.lt_iff_toInt_lt.2 hy)

/-- What two integers give: a failure of the right operand, a result, or overflow. -/
theorem onIntegers_cases (operator : BinaryOperator) (x y : Int64) (values : List Value) :
    (¬ operator.Takes y.toInt ∧ ∃ cause,
      onIntegers ⟨operator.builtin.name, values⟩ operator x y = fails operator cause ∧
        ∀ position expected actual, cause ≠ .type position expected actual) ∨
    (operator.Takes y.toInt ∧ onIntegers ⟨operator.builtin.name, values⟩ operator x y =
      orOverflow ⟨operator.builtin.name, values⟩ (checked? operator x y)) := by
  by_cases ht : operator.Takes y.toInt
  · exact .inr ⟨ht, onIntegers_of_takes ht values⟩
  · refine .inl ⟨ht, ?_⟩
    rcases not_and_or.1 ht with hzero | hnegative
    · obtain ⟨hsome, hy⟩ := Classical.not_imp.1 hzero
      obtain ⟨cause, hcause⟩ := Option.isSome_iff_exists.1 hsome
      have hy0 : y = 0 := Int64.toInt_inj.1 (Classical.not_not.1 hy)
      exact ⟨cause, by rw [hy0, onIntegers_of_zero values hcause],
        fun _ _ _ => zeroDivisor_ne_type hcause⟩
    · obtain ⟨rfl, hy⟩ := Classical.not_imp.1 hnegative
      exact ⟨_, onIntegers_of_negative values (by omega), fun _ _ _ h => by cases h⟩

/-- Two integers give the exact integer, or fail. -/
theorem answers_of_integers (operator : BinaryOperator) (x y : Int64) :
    Answers operator (.int x) (.int y)
      (onIntegers ⟨operator.builtin.name, [.int x, .int y]⟩ operator x y) := by
  have hcases := onIntegers_cases operator x y [.int x, .int y]
  have htype : ∀ position expected actual,
      onIntegers ⟨operator.builtin.name, [.int x, .int y]⟩ operator x y ≠
        fails operator (.type position expected actual) := by
    intro position expected actual hc
    rcases hcases with ⟨-, cause, hr, hne⟩ | ⟨-, hr⟩
    · rw [hr] at hc
      exact hne _ _ _ (fails_inj hc)
    · rw [hr] at hc
      cases hchecked : checked? operator x y with
      | none =>
        rw [hchecked] at hc
        have hcause : Cause.overflow = .type position expected actual := fails_inj hc
        cases hcause
      | some n =>
        rw [hchecked] at hc
        cases hc
  refine ⟨⟨?_, ?_⟩, ?_, ?_, ?_, ?_, ?_, ?_, ?_, ?_⟩
  · rintro ⟨_, _, _, hc⟩
    exact absurd hc (htype _ _ _)
  · exact fun hn => absurd (.inl ⟨rfl, rfl⟩) hn
  · exact fun hc => absurd hc (htype _ _ _)
  · rintro _ _ v ⟨⟩ ⟨⟩ hv
    rcases hcases with ⟨-, cause, hr, -⟩ | ⟨ht, hr⟩
    · rw [hr] at hv
      exact absurd hv fails_ne_ok
    · rw [hr] at hv
      by_cases hrefuses : operator.Refuses x.toInt y.toInt
      · rw [checked_eq_none ht hrefuses] at hv
        cases hv
      · cases hchecked : checked? operator x y with
        | none =>
          rw [hchecked] at hv
          cases hv
        | some n =>
          rw [hchecked] at hv
          rw [checked_eq ht hrefuses] at hchecked
          exact ⟨n, (Except.ok.inj hv).symm, Checked.ofInt_eq_some.1 hchecked⟩
  · rintro _ _ ⟨⟩ ⟨⟩ ht hfits
    rw [onIntegers_of_takes ht]
    by_cases hrefuses : operator.Refuses x.toInt y.toInt
    · rw [checked_eq_none ht hrefuses]
      rfl
    · rw [checked_eq ht hrefuses, Checked.ofInt_eq_none.2 hfits]
      rfl
  · rintro _ _ ⟨⟩ ⟨⟩ ht hfits
    rw [onIntegers_of_takes ht]
    constructor
    · intro hrefuses
      rw [checked_eq_none ht hrefuses]
      rfl
    · intro hrefuses
      rw [checked_eq ht hrefuses, Checked.ofInt_of_fits hfits]
      exact ⟨_, rfl⟩
  · rintro _ _ ⟨⟩ ⟨⟩ rfl hy
    exact onIntegers_of_negative _ hy
  · rintro cause - (hy | ⟨z, hz, -⟩) hcause
    · obtain rfl := Value.int.inj hy
      exact onIntegers_of_zero _ hcause
    · cases hz
  · rintro _ _ - - (hk | hk)
    · cases hk
    · cases hk
  · exact fun _ hj => absurd ⟨rfl, rfl⟩ hj.not_numeric

end Integers

/-! ## Every call -/

/-- The pairs that are supported after one operand is changed into the kind of the other. -/
def Coerces (operator : BinaryOperator) (left right : Value) : Prop :=
  Supports operator left right ∧ left.kind ≠ right.kind

/-- The operands of a supported pair are changed exactly if their kinds differ, and then the
operator answers by its laws. -/
theorem answers_of_coerce (operator : BinaryOperator) (left right : Value) :
    Answers operator left right
        (apply ⟨operator.builtin.name, [left, right]⟩ operator (coerce left right operator)) ∧
      ((coerce left right operator).changed = true ↔ Coerces operator left right) := by
  by_cases hs : Supports operator left right
  · have hchanged : ∀ changed : Bool, changed = decide (left.kind ≠ right.kind) →
        (changed = true ↔ Coerces operator left right) := by
      rintro _ rfl
      rw [decide_eq_true_eq]
      exact ⟨fun h => ⟨hs, h⟩, fun h => h.2⟩
    rcases hs with ⟨hl, hr⟩ | hj
    · by_cases hk : left.kind = .float ∨ right.kind = .float
      · obtain ⟨x, hx⟩ : ∃ x, left.asFloat? = some x := by
          cases left <;> first | exact ⟨_, rfl⟩ | cases hl
        obtain ⟨y, hy⟩ : ∃ y, right.asFloat? = some y := by
          cases right <;> first | exact ⟨_, rfl⟩ | cases hr
        rw [coerce_doubles hx hy hk]
        exact ⟨answers_of_doubles hx hy hk, hchanged _ rfl⟩
      · cases left with
        | int m =>
          cases right with
          | int n => exact ⟨answers_of_integers operator m n, hchanged _ rfl⟩
          | float y => exact absurd (.inr rfl) hk
          | _ => cases hr
        | float x => exact absurd (.inl rfl) hk
        | _ => cases hl
    · refine ⟨answers_of_joins hj fun resolved => ?_, ?_⟩
      · rw [coerce_texts hj resolved]
        exact if_pos hj.1
      · rw [coerce_texts hj fun _ => false]
        exact hchanged _ rfl
  · rw [coerce_unsupported hs, apply_unsupported hs]
    refine ⟨answers_of_blame hs, ?_⟩
    exact ⟨fun h => (Bool.false_ne_true h).elim, fun h => absurd h.1 hs⟩

/-- Every call of an operator's builtin answers by the laws of the operator. It reports the event of
a coercion exactly if it coerces, even if it fails then, and changes nothing else in the world. -/
theorem answers_of_call (operator : BinaryOperator) (left right : Value) (w : World) :
    Builtin.lookup? operator.builtin.name = some operator.builtin ∧
      Answers operator left right (operator.builtin.tryCall [left, right] w).1 ∧
      (Coerces operator left right → (operator.builtin.tryCall [left, right] w).2 =
        { w with events := w.events ++ [.coerced operator.builtin.name operator] }) ∧
      (¬ Coerces operator left right → (operator.builtin.tryCall [left, right] w).2 = w) := by
  have hrun : operator.builtin.tryCall [left, right] w =
      (apply ⟨operator.builtin.name, [left, right]⟩ operator (coerce left right operator),
        if (coerce left right operator).changed
        then { w with events := w.events ++ [.coerced operator.builtin.name operator] }
        else w) := by
    rw [Builtin.tryCall_run, Builtin.arity, BinaryOperator.builtin_operation]
    exact Operation.arithmeticStep_run operator w
  obtain ⟨hanswers, hchanged⟩ := answers_of_coerce operator left right
  rw [hrun]
  refine ⟨?_, hanswers, ?_, ?_⟩
  · cases operator <;> rfl
  · exact fun hc => if_pos (hchanged.2 hc)
  · exact fun hc => if_neg fun h => hc (hchanged.1 h)

end Arithmetic

end ScriptValues
