import ScriptValues.Proofs.Coercions
import ScriptValues.Proofs.NamedCalls
import ScriptValues.Proofs.NumberOrder

/-!
# The smaller and the larger of two numbers

`Min` and `Max` coerce two numbers to one kind and make the same comparison of them, after which one
keeps the left operand where the other keeps the right one. So the two share the operands between
them, and without NaN the smaller one goes to `Min`, in whichever order they come. With NaN the
comparison fails in both orders, and then the order decides: `Min` answers the second operand and
`Max` the first.

* `Extremes.exists_coerced`: two numbers become two values of one kind, NaN only of NaN.
* `Extremes.extremeLaws`: what `Min` and `Max` answer for two numbers.
* `Extremes.exchangeLaws`: what exchanging the arguments does to the answers.
-/

namespace ScriptValues

namespace Extremes

open Builtin
open Arithmetic (atMost atMost_iff atMost_of_isNaN pick)

variable {left right v w : Value} {chooseLeft : Bool → Bool} {c : Coerced} {p q : ℚ}

/-! ## Coerced numbers -/

/-- `c` holds two numbers as coercion leaves them. -/
structure Coerces (left right : Value) (c : Coerced) : Prop where
  operands : ∀ operator, coerce left right operator = c
  kind : c.left.kind = c.right.kind
  isNumeric : c.left.isNumeric ∧ c.right.isNumeric
  /-- NaN stays NaN, and nothing else becomes NaN. -/
  isNaN : (c.left.IsNaN ↔ left.IsNaN) ∧ (c.right.IsNaN ↔ right.IsNaN)

/-- An integer is a number, and so is the double that it becomes. -/
theorem isNaN_ofInt_iff (n : Int64) :
    (Value.float (Double.ofInt n.toInt)).IsNaN ↔ (Value.int n).IsNaN := by
  have hnumber := Double.not_isNaN_ofInt (Checked.natAbs_le_of_fits (Checked.fits_toInt n))
  rw [Value.isNaN_float]
  exact iff_of_false hnumber (Value.not_isNaN_int n)

theorem coerces_floats (x y : Float) :
    Coerces (.float x) (.float y) ⟨.float x, .float y, false⟩ :=
  ⟨fun _ => rfl, Eq.refl Kind.float, ⟨rfl, rfl⟩, Iff.rfl, Iff.rfl⟩

/-- Integers stay integers next to each other, and all other pairs become doubles. -/
theorem exists_coerced (hleft : left.isNumeric) (hright : right.isNumeric) :
    ∃ c, Coerces left right c := by
  cases left with
  | int m =>
    cases right with
    | int n =>
      exact ⟨⟨.int m, .int n, false⟩, fun _ => rfl, Eq.refl Kind.integer, ⟨rfl, rfl⟩,
        Iff.rfl, Iff.rfl⟩
    | float y =>
      exact ⟨⟨.float (Double.ofInt m.toInt), .float y, true⟩, fun _ => rfl, Eq.refl Kind.float,
        ⟨rfl, rfl⟩, isNaN_ofInt_iff m, Iff.rfl⟩
    | _ => cases hright
  | float x =>
    cases right with
    | int n =>
      exact ⟨⟨.float x, .float (Double.ofInt n.toInt), true⟩, fun _ => rfl, Eq.refl Kind.float,
        ⟨rfl, rfl⟩, Iff.rfl, isNaN_ofInt_iff n⟩
    | float y => exact ⟨_, coerces_floats x y⟩
    | _ => cases hright
  | _ => cases hleft

/-- Exchanged operands are coerced to the same values. -/
theorem Coerces.symm (h : Coerces left right c) :
    Coerces right left ⟨c.right, c.left, c.changed⟩ where
  operands := by
    intro operator
    have hlaws := coercionLaws operator left right
    rw [h.operands] at hlaws
    exact hlaws.symmetric
  kind := h.kind.symm
  isNumeric := h.isNumeric.symm
  isNaN := h.isNaN.symm

/-! ## The choice -/

/-- The operand that is kept, where the choice is told whether the left one is at most the right
one. -/
def chosen (chooseLeft : Bool → Bool) (v w : Value) : Value :=
  if chooseLeft (atMost v w) then v else w

theorem pick_eq (name : String) (hleft : left.isNumeric) (hright : right.isNumeric)
    (h : Coerces left right c) :
    pick ⟨name, [left, right]⟩ chooseLeft = .ok (chosen chooseLeft c.left c.right) := by
  unfold pick
  rw [Arguments.number_eq_ok.2 ⟨rfl, hleft⟩, Arguments.number_eq_ok.2 ⟨rfl, hright⟩,
    Result.ok_bind, Result.ok_bind, h.operands]
  rfl

theorem gives_min (hleft : left.isNumeric) (hright : right.isNumeric) (h : Coerces left right c) :
    Gives "Min" [left, right] (.ok (chosen id c.left c.right)) :=
  gives_of_run rfl rfl fun _ => pick_eq "Min" hleft hright h

theorem gives_max (hleft : left.isNumeric) (hright : right.isNumeric) (h : Coerces left right c) :
    Gives "Max" [left, right] (.ok (chosen not c.left c.right)) :=
  gives_of_run rfl rfl fun _ => pick_eq "Max" hleft hright h

theorem chosen_of_atMost (h : atMost v w = true) : chosen id v w = v ∧ chosen not v w = w := by
  unfold chosen
  rw [h]
  exact ⟨rfl, rfl⟩

theorem chosen_of_not_atMost (h : atMost v w = false) :
    chosen id v w = w ∧ chosen not v w = v := by
  unfold chosen
  rw [h]
  exact ⟨rfl, rfl⟩

theorem chosen_eq_or (chooseLeft : Bool → Bool) (v w : Value) :
    chosen chooseLeft v w = v ∨ chosen chooseLeft v w = w := by
  unfold chosen
  split
  · exact .inl rfl
  · exact .inr rfl

/-! ## Both answers -/

structure ExtremeLaws (left right lo hi : Value) : Prop where
  /-- Each of the coerced operands is answered once, as it is. -/
  shared : ∀ operator,
    lo = (coerce left right operator).left ∧ hi = (coerce left right operator).right ∨
    lo = (coerce left right operator).right ∧ hi = (coerce left right operator).left
  ordered : ¬ left.IsNaN → ¬ right.IsNaN →
    ∃ p q, lo.number? = some p ∧ hi.number? = some q ∧ p ≤ q
  /-- Two integers are compared as they are. -/
  integers : ∀ m n, left = .int m → right = .int n → ∃ i j, lo = .int i ∧ hi = .int j ∧
    i.toInt = min m.toInt n.toInt ∧ j.toInt = max m.toInt n.toInt

/-- Without NaN, what `Min` keeps is at most what `Max` keeps. -/
theorem chosen_le_chosen (hkind : v.kind = w.kind) (hv : v.number? = some p)
    (hw : w.number? = some q) : ∃ p' q',
      (chosen id v w).number? = some p' ∧ (chosen not v w).number? = some q' ∧ p' ≤ q' := by
  have hle := atMost_iff hkind hv hw
  cases hatMost : atMost v w with
  | true =>
    obtain ⟨hlo, hhi⟩ := chosen_of_atMost hatMost
    rw [hlo, hhi]
    exact ⟨p, q, hv, hw, hle.1 hatMost⟩
  | false =>
    obtain ⟨hlo, hhi⟩ := chosen_of_not_atMost hatMost
    have hlt : ¬ p ≤ q := by
      intro hpq
      rw [hle.2 hpq] at hatMost
      cases hatMost
    rw [hlo, hhi]
    exact ⟨q, p, hw, hv, le_of_not_ge hlt⟩

theorem chosen_integers (m n : Int64) : ∃ i j : Int64,
    chosen id (.int m) (.int n) = .int i ∧ chosen not (.int m) (.int n) = .int j ∧
      i.toInt = min m.toInt n.toInt ∧ j.toInt = max m.toInt n.toInt := by
  have hle : atMost (.int m) (.int n) = decide (m ≤ n) := rfl
  by_cases hmn : m ≤ n
  · obtain ⟨hlo, hhi⟩ := chosen_of_atMost (hle.trans (decide_eq_true hmn))
    rw [Int64.le_iff_toInt_le] at hmn
    exact ⟨m, n, hlo, hhi, by omega, by omega⟩
  · obtain ⟨hlo, hhi⟩ := chosen_of_not_atMost (hle.trans (decide_eq_false hmn))
    rw [Int64.le_iff_toInt_le] at hmn
    exact ⟨n, m, hlo, hhi, by omega, by omega⟩

/-- `Min` and `Max` answer for any two numbers, and share the operands between them. -/
theorem extremeLaws (hleft : left.isNumeric) (hright : right.isNumeric) : ∃ lo hi,
    Gives "Min" [left, right] (.ok lo) ∧ Gives "Max" [left, right] (.ok hi) ∧
    ExtremeLaws left right lo hi := by
  obtain ⟨c, hc⟩ := exists_coerced hleft hright
  refine ⟨_, _, gives_min hleft hright hc, gives_max hleft hright hc, ?_⟩
  constructor
  · intro operator
    rw [hc.operands]
    cases hatMost : atMost c.left c.right with
    | true => exact .inl (chosen_of_atMost hatMost)
    | false => exact .inr (chosen_of_not_atMost hatMost)
  · intro hleftNaN hrightNaN
    obtain ⟨p, hp⟩ := Value.exists_number hc.isNumeric.1 (mt hc.isNaN.1.1 hleftNaN)
    obtain ⟨q, hq⟩ := Value.exists_number hc.isNumeric.2 (mt hc.isNaN.2.1 hrightNaN)
    exact chosen_le_chosen hc.kind hp hq
  · rintro m n rfl rfl
    obtain rfl : _ = c := hc.operands .subtract
    exact chosen_integers m n

/-- With NaN each operand is still answered once. -/
theorem extremeLaws_nan :
    (Value.int 3).isNumeric ∧ (Value.float Double.notANumber).isNumeric ∧ ∃ lo hi,
      Gives "Min" [.int 3, .float Double.notANumber] (.ok lo) ∧
      Gives "Max" [.int 3, .float Double.notANumber] (.ok hi) ∧
      ExtremeLaws (.int 3) (.float Double.notANumber) lo hi :=
  ⟨rfl, rfl, extremeLaws rfl rfl⟩

/-! ## Exchanged arguments -/

/-- Two values of one kind that are equal as numbers, or both NaN. -/
structure SameNumber (v w : Value) : Prop where
  kind : v.kind = w.kind
  number : (∃ q, v.number? = some q ∧ w.number? = some q) ∨ v.IsNaN ∧ w.IsNaN

theorem SameNumber.symm (h : SameNumber v w) : SameNumber w v where
  kind := h.kind.symm
  number := by
    rcases h.number with ⟨q, hv, hw⟩ | ⟨hv, hw⟩
    · exact .inl ⟨q, hw, hv⟩
    · exact .inr ⟨hw, hv⟩

theorem sameNumber_refl (h : v.number? = some p) : SameNumber v v := ⟨rfl, .inl ⟨p, h, h⟩⟩

/-- If one of two values of one kind is NaN, they are the same only if both are. -/
theorem sameNumber_iff_of_isNaN (hkind : v.kind = w.kind) (h : v.IsNaN ∨ w.IsNaN) :
    SameNumber v w ↔ (v.IsNaN ↔ w.IsNaN) := by
  constructor
  · intro hsame
    rcases hsame.number with ⟨q, hv, hw⟩ | ⟨hv, hw⟩
    · rcases h with hnan | hnan
      · rw [Value.number_of_isNaN hnan] at hv
        cases hv
      · rw [Value.number_of_isNaN hnan] at hw
        cases hw
    · exact iff_of_true hv hw
  · intro hiff
    refine ⟨hkind, .inr ?_⟩
    rcases h with hnan | hnan
    · exact ⟨hnan, hiff.1 hnan⟩
    · exact ⟨hiff.2 hnan, hnan⟩

theorem kind_chosen (hkind : v.kind = w.kind) : (chosen chooseLeft v w).kind = v.kind := by
  rcases chosen_eq_or chooseLeft v w with h | h
  · rw [h]
  · rw [h, hkind]

/-- The kind that is kept does not depend on the order. -/
theorem kind_chosen_eq (hkind : v.kind = w.kind) :
    (chosen chooseLeft v w).kind = (chosen chooseLeft w v).kind := by
  rw [kind_chosen hkind, kind_chosen hkind.symm, hkind]

/-- The number of a tie is kept. -/
theorem number_chosen (hv : v.number? = some p) (hw : w.number? = some p) :
    (chosen chooseLeft v w).number? = some p := by
  rcases chosen_eq_or chooseLeft v w with h | h
  · rwa [h]
  · rwa [h]

/-- Just one of two different numbers is at most the other. -/
theorem atMost_swap (hne : p ≠ q) (hkind : v.kind = w.kind) (hv : v.number? = some p)
    (hw : w.number? = some q) : atMost w v = !atMost v w := by
  rw [Bool.eq_not_iff, Ne, Bool.eq_iff_iff, atMost_iff hkind hv hw, atMost_iff hkind.symm hw hv]
  intro hiff
  rcases le_total p q with hle | hle
  · exact hne (le_antisymm hle (hiff.2 hle))
  · exact hne (le_antisymm (hiff.1 hle) hle)

/-- Where the comparison turns with the order, the same operand is kept. -/
theorem chosen_swap (hchoose : chooseLeft false = !chooseLeft true)
    (hswap : atMost w v = !atMost v w) : chosen chooseLeft w v = chosen chooseLeft v w := by
  unfold chosen
  rw [hswap]
  cases atMost v w with
  | true => cases h : chooseLeft true <;> simp [hchoose, h]
  | false => cases h : chooseLeft true <;> simp [hchoose, h]

/-- Of two numbers of one kind the same one is kept in both orders. -/
theorem sameNumber_chosen (hchoose : chooseLeft false = !chooseLeft true)
    (hkind : v.kind = w.kind) (hv : v.number? = some p) (hw : w.number? = some q) :
    SameNumber (chosen chooseLeft v w) (chosen chooseLeft w v) := by
  by_cases heq : p = q
  · -- whichever operands are kept of a tie, their number is the same
    subst heq
    exact ⟨kind_chosen_eq hkind, .inl ⟨p, number_chosen hv hw, number_chosen hw hv⟩⟩
  · rw [chosen_swap hchoose (atMost_swap heq hkind hv hw)]
    rcases chosen_eq_or chooseLeft v w with h | h
    · rw [h]
      exact sameNumber_refl hv
    · rw [h]
      exact sameNumber_refl hw

/-- With NaN the choice is the same in both orders, so different operands are kept. -/
theorem chosen_of_isNaN (hkind : v.kind = w.kind) (h : v.IsNaN ∨ w.IsNaN) :
    chosen chooseLeft v w = v ∧ chosen chooseLeft w v = w ∨
      chosen chooseLeft v w = w ∧ chosen chooseLeft w v = v := by
  unfold chosen
  rw [atMost_of_isNaN hkind h, atMost_of_isNaN hkind.symm h.symm]
  cases chooseLeft false with
  | true => exact .inl ⟨rfl, rfl⟩
  | false => exact .inr ⟨rfl, rfl⟩

/-- What is kept is the same number in both orders, unless just one operand is NaN. -/
theorem sameNumber_chosen_iff (hchoose : chooseLeft false = !chooseLeft true)
    (hkind : v.kind = w.kind) (hv : v.isNumeric) (hw : w.isNumeric) :
    SameNumber (chosen chooseLeft v w) (chosen chooseLeft w v) ↔ (v.IsNaN ↔ w.IsNaN) := by
  by_cases hnan : v.IsNaN ∨ w.IsNaN
  · have hsame := sameNumber_iff_of_isNaN hkind hnan
    rcases chosen_of_isNaN hkind hnan with ⟨h, h'⟩ | ⟨h, h'⟩
    · rwa [h, h']
    · rw [h, h', ← hsame]
      exact ⟨SameNumber.symm, SameNumber.symm⟩
  · obtain ⟨hvNaN, hwNaN⟩ := not_or.1 hnan
    obtain ⟨p, hp⟩ := Value.exists_number hv hvNaN
    obtain ⟨q, hq⟩ := Value.exists_number hw hwNaN
    exact iff_of_true (sameNumber_chosen hchoose hkind hp hq) (iff_of_false hvNaN hwNaN)

/-- A builtin answers for two numbers in both orders, with values of one kind. They are the same
number exactly unless just one of the two is NaN. -/
def Exchanges (name : String) (left right : Value) : Prop :=
  ∃ r r', Gives name [left, right] (.ok r) ∧ Gives name [right, left] (.ok r') ∧
    r.kind = r'.kind ∧ (SameNumber r r' ↔ (left.IsNaN ↔ right.IsNaN))

theorem exchanges_of_chosen {name : String} (hchoose : chooseLeft false = !chooseLeft true)
    (hgives : ∀ {left right : Value} {c : Coerced}, left.isNumeric → right.isNumeric →
      Coerces left right c → Gives name [left, right] (.ok (chosen chooseLeft c.left c.right)))
    (hleft : left.isNumeric) (hright : right.isNumeric) : Exchanges name left right := by
  obtain ⟨c, hc⟩ := exists_coerced hleft hright
  refine ⟨_, _, hgives hleft hright hc, hgives hright hleft hc.symm, kind_chosen_eq hc.kind, ?_⟩
  rw [sameNumber_chosen_iff hchoose hc.kind hc.isNumeric.1 hc.isNumeric.2, hc.isNaN.1, hc.isNaN.2]

structure ExchangeLaws (left right : Value) : Prop where
  min : Exchanges "Min" left right
  max : Exchanges "Max" left right
  /-- With just one NaN the order decides. -/
  byOrder : ¬ (left.IsNaN ↔ right.IsNaN) → ∀ operator,
    Gives "Min" [left, right] (.ok (coerce left right operator).right) ∧
    Gives "Max" [left, right] (.ok (coerce left right operator).left)

/-- The order of the arguments only matters where just one of them is NaN. -/
theorem exchangeLaws (hleft : left.isNumeric) (hright : right.isNumeric) :
    ExchangeLaws left right := by
  constructor
  · exact exchanges_of_chosen rfl gives_min hleft hright
  · exact exchanges_of_chosen rfl gives_max hleft hright
  · intro hnan operator
    obtain ⟨c, hc⟩ := exists_coerced hleft hright
    have hone : c.left.IsNaN ∨ c.right.IsNaN := by
      rw [hc.isNaN.1, hc.isNaN.2]
      by_contra hnone
      obtain ⟨h, h'⟩ := not_or.1 hnone
      exact hnan (iff_of_false h h')
    obtain ⟨hlo, hhi⟩ := chosen_of_not_atMost (atMost_of_isNaN hc.kind hone)
    have hmin := gives_min hleft hright hc
    have hmax := gives_max hleft hright hc
    rw [hlo] at hmin
    rw [hhi] at hmax
    rw [hc.operands]
    exact ⟨hmin, hmax⟩

theorem exchangeLaws_integerAndNaN :
    (Value.int 3).isNumeric ∧ (Value.float Double.notANumber).isNumeric ∧
      ExchangeLaws (.int 3) (.float Double.notANumber) :=
  ⟨rfl, rfl, exchangeLaws rfl rfl⟩

/-- `Min` answers 1 for NaN and 1, but NaN for 1 and NaN. -/
theorem min_goes_by_order :
    Gives "Min" [.float Double.notANumber, .float (Double.ofInt 1)]
      (.ok (.float (Double.ofInt 1))) ∧
    Gives "Min" [.float (Double.ofInt 1), .float Double.notANumber]
      (.ok (.float Double.notANumber)) ∧
    ¬ SameNumber (.float (Double.ofInt 1)) (.float Double.notANumber) := by
  have hnan : (Value.float Double.notANumber).IsNaN :=
    Value.isNaN_float.2 Double.decode_notANumber
  have hnumber : ¬ (Value.float (Double.ofInt 1)).IsNaN := (isNaN_ofInt_iff 1).not.2 (by simp)
  have hforth := coerces_floats Double.notANumber (Double.ofInt 1)
  have hback := coerces_floats (Double.ofInt 1) Double.notANumber
  have hmin := gives_min rfl rfl hforth
  have hmin' := gives_min rfl rfl hback
  rw [(chosen_of_not_atMost (atMost_of_isNaN hforth.kind (.inl hnan))).1] at hmin
  rw [(chosen_of_not_atMost (atMost_of_isNaN hback.kind (.inr hnan))).1] at hmin'
  refine ⟨hmin, hmin', ?_⟩
  intro hsame
  exact hnumber (((sameNumber_iff_of_isNaN hback.kind (.inr hnan)).1 hsame).2 hnan)

end Extremes

end ScriptValues
