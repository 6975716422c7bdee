import ScriptValues.Operations.Computation
import ScriptValues.Proofs.CheckedIntegers

/-!
# Which argument is blamed

Every computation has a signature: the kinds that it takes at each position. It looks at its
arguments from left to right, so the first argument that it does not take is the one it blames; and
it treats its name as a label, which only stands in its failures. Host operations that are only
defined in range are never reached outside it, whatever the arguments and however many there are.

* `Computation.signature`: the kinds that a computation takes.
* `Signature.Obeys`: the ways in which a call can end.
* `Computation.obeys`: every computation ends in one of them.
-/

namespace ScriptValues

def Kind.all : List Kind :=
  [.integer, .float, .string, .bool, .null, .list, .mapping, .error, .builtin, .future]

theorem Kind.mem_all (k : Kind) : k ∈ Kind.all := by
  cases k <;> decide

/-- The kinds that are taken at each position; past the end all are. -/
abbrev Signature := List (List Kind)

namespace Signature

/-- The kinds that are taken at position `i`, counted from zero. -/
def takes (sig : Signature) (i : Nat) : List Kind := sig.getD i Kind.all

/-- The arguments before position `i` are of kinds that are taken there. -/
def AcceptedBefore (sig : Signature) (values : List Value) (i : Nat) : Prop :=
  ∀ j v, j < i → values[j]? = some v → v.kind ∈ sig.takes j

/-- The ways in which a computation with these arguments can end, as functions of the name that was
called. There is no fault of the host, a failure of the arity says which position of the signature
has no argument, and a type failure blames the first argument that is not taken. -/
inductive Obeys (sig : Signature) (values : List Value) {α : Type} : (String → Result α) → Prop
  | answers (content : α) : Obeys sig values fun _ => .ok content
  | fails (cause : Cause) : (∀ expected got, cause ≠ .arity expected got) →
      (∀ position expected actual, cause ≠ .type position expected actual) →
      Obeys sig values fun name => .error (.failure ⟨name, cause⟩)
  | blames {i : Nat} {v : Value} : values[i]? = some v → v.kind ∉ sig.takes i →
      sig.AcceptedBefore values i →
      Obeys sig values fun name =>
        .error (.failure ⟨name, .type (i + 1) (.kinds (sig.takes i)) v.kind⟩)
  | lacks {i : Nat} : i < sig.length → values.length ≤ i →
      Obeys sig values fun name =>
        .error (.failure ⟨name, .arity (.atLeast (i + 1)) values.length⟩)

variable {sig : Signature} {values : List Value} {i : Nat} {kinds : List Kind} {α β : Type}

theorem lt_length (h : sig[i]? = some kinds) : i < sig.length := (List.getElem?_eq_some_iff.1 h).1

theorem takes_eq (h : sig[i]? = some kinds) : sig.takes i = kinds := by
  rw [takes, List.getD_eq_getElem?_getD, h, Option.getD_some]

theorem acceptedBefore_zero : sig.AcceptedBefore values 0 := by
  intro j v hj
  omega

theorem AcceptedBefore.next {v : Value} (h : sig.AcceptedBefore values i)
    (hv : values[i]? = some v) (hk : v.kind ∈ sig.takes i) : sig.AcceptedBefore values (i + 1) := by
  intro j w hj hw
  rcases Nat.lt_succ_iff_lt_or_eq.1 hj with hj | rfl
  · exact h j w hj hw
  · rw [hv] at hw
    rw [← Option.some.inj hw]
    exact hk

namespace Obeys

/-- A call may fail for any cause but the number and the kinds of its arguments. -/
theorem fail {cause : Cause} (harity : ∀ expected got, cause ≠ .arity expected got)
    (htype : ∀ position expected actual, cause ≠ .type position expected actual) :
    Obeys sig values fun name => (⟨name, values⟩ : Arguments).fail (α := α) cause :=
  .fails cause harity htype

theorem mismatch {v : Value} (hbefore : sig.AcceptedBefore values i)
    (hv : values[i]? = some v) (hsig : sig[i]? = some kinds) (hk : v.kind ∉ kinds) :
    Obeys (α := α) sig values fun name =>
      (⟨name, values⟩ : Arguments).mismatch i (.kinds kinds) := by
  obtain rfl := takes_eq hsig
  have hblames : Obeys (α := α) sig values _ := .blames hv hk hbefore
  simpa [Arguments.mismatch, Arguments.fail, hv] using hblames

theorem ite {c : Prop} [Decidable c] {r r' : String → Result α} (ht : c → Obeys sig values r)
    (hf : ¬ c → Obeys sig values r') :
    Obeys sig values fun name => if c then r name else r' name := by
  by_cases hc : c
  · simpa only [hc, if_true] using ht hc
  · simpa only [hc, if_false] using hf hc

/-! ## Looking at one argument -/

/-- A look finds the argument, or says that it is missing. -/
theorem value {k : Value → String → Result β} (hsig : sig[i]? = some kinds)
    (hk : ∀ v, values[i]? = some v → Obeys sig values (k v)) :
    Obeys sig values fun name => (⟨name, values⟩ : Arguments).value i >>= fun v => k v name := by
  cases hv : values[i]? with
  | none =>
    have hlacks : Obeys (α := β) sig values _ :=
      .lacks (lt_length hsig) (List.getElem?_eq_none_iff.1 hv)
    simpa [Arguments.value, hv, Arguments.fail, Result.error_bind] using hlacks
  | some v => simpa [Arguments.value, hv, Result.ok_bind] using hk v hv

/-- A typed look is a look that goes on with the content. -/
theorem expect_eq (a : Arguments) (i : Nat) (kinds : List Kind) (get? : Value → Option α) :
    a.expect i kinds get? =
      a.value i >>= fun v => (get? v).elim (a.mismatch i (.kinds kinds)) .ok := by
  unfold Arguments.expect
  cases a.value i with
  | error halt => rfl
  | ok v => cases hv : get? v <;> simp [hv, Result.ok_bind]

/-- A typed look blames the argument, or finds its content and goes on to the next one. -/
theorem expect {get? : Value → Option α} {k : α → String → Result β}
    (hbefore : sig.AcceptedBefore values i) (hsig : sig[i]? = some kinds)
    (hget : ∀ v, v.kind ∈ kinds ↔ (get? v).isSome)
    (hk : ∀ v content, values[i]? = some v → get? v = some content →
      sig.AcceptedBefore values (i + 1) → Obeys sig values (k content)) :
    Obeys sig values fun name =>
      (⟨name, values⟩ : Arguments).expect i kinds get? >>= fun content => k content name := by
  simp only [expect_eq, bind_assoc]
  refine .value hsig fun v hv => ?_
  cases hcontent : get? v with
  | none =>
    have hnot : v.kind ∉ kinds := by
      rw [hget, hcontent]
      exact Bool.false_ne_true
    have hblames : Obeys (α := β) sig values _ := mismatch hbefore hv hsig hnot
    simpa [Arguments.mismatch, Arguments.fail, Result.error_bind] using hblames
  | some content =>
    have hmem : v.kind ∈ sig.takes i := by
      rw [takes_eq hsig, hget, hcontent]
      rfl
    exact hk v content hv hcontent (hbefore.next hv hmem)

theorem int {k : Int64 → String → Result β} (hbefore : sig.AcceptedBefore values i)
    (hsig : sig[i]? = some [.integer])
    (hk : ∀ n, sig.AcceptedBefore values (i + 1) → Obeys sig values (k n)) :
    Obeys sig values fun name => (⟨name, values⟩ : Arguments).int i >>= fun n => k n name :=
  expect hbefore hsig (fun v => by cases v <;> simp [Value.kind, Value.asInt?])
    fun _ n _ _ hnext => hk n hnext

theorem number {k : Value → String → Result β} (hbefore : sig.AcceptedBefore values i)
    (hsig : sig[i]? = some [.integer, .float])
    (hk : ∀ v, v.isNumeric → sig.AcceptedBefore values (i + 1) → Obeys sig values (k v)) :
    Obeys sig values fun name => (⟨name, values⟩ : Arguments).number i >>= fun v => k v name := by
  refine expect hbefore hsig ?_ fun v content _ hcontent hnext => ?_
  · intro v
    cases v <;> simp [Value.kind, Value.isNumeric]
  · split at hcontent
    · next hnumeric =>
      obtain rfl := Option.some.inj hcontent
      exact hk v hnumeric hnext
    · cases hcontent

theorem string {k : String → String → Result β} (hbefore : sig.AcceptedBefore values i)
    (hsig : sig[i]? = some [.string])
    (hk : ∀ s, sig.AcceptedBefore values (i + 1) → Obeys sig values (k s)) :
    Obeys sig values fun name => (⟨name, values⟩ : Arguments).string i >>= fun s => k s name :=
  expect hbefore hsig (fun v => by cases v <;> simp [Value.kind, Value.asString?])
    fun _ s _ _ hnext => hk s hnext

theorem list {k : List Value → String → Result β} (hbefore : sig.AcceptedBefore values i)
    (hsig : sig[i]? = some [.list])
    (hk : ∀ items, sig.AcceptedBefore values (i + 1) → Obeys sig values (k items)) :
    Obeys sig values fun name =>
      (⟨name, values⟩ : Arguments).list i >>= fun items => k items name :=
  expect hbefore hsig (fun v => by cases v <;> simp [Value.kind, Value.asList?])
    fun _ items _ _ hnext => hk items hnext

theorem mapping {k : Entries Value → String → Result β} (hbefore : sig.AcceptedBefore values i)
    (hsig : sig[i]? = some [.mapping])
    (hk : ∀ entries, sig.AcceptedBefore values (i + 1) → Obeys sig values (k entries)) :
    Obeys sig values fun name =>
      (⟨name, values⟩ : Arguments).mapping i >>= fun entries => k entries name :=
  expect hbefore hsig (fun v => by cases v <;> simp [Value.kind, Value.asMapping?])
    fun _ entries _ _ hnext => hk entries hnext

theorem future {k : FutureId → String → Result β} (hbefore : sig.AcceptedBefore values i)
    (hsig : sig[i]? = some [.future])
    (hk : ∀ id, values[i]? = some (.future id) → sig.AcceptedBefore values (i + 1) →
      Obeys sig values (k id)) :
    Obeys sig values fun name => (⟨name, values⟩ : Arguments).future i >>= fun id => k id name := by
  refine expect hbefore hsig (fun v => by cases v <;> simp [Value.kind])
    fun v id hv hid hnext => hk id ?_ hnext
  cases v <;> simp_all

end Obeys

end Signature

open Signature

variable {values : List Value}

/-! ## Texts -/

namespace Texts

theorem obeys_split :
    Obeys [[.string], [.string]] values fun name => split ⟨name, values⟩ := by
  refine .string acceptedBefore_zero rfl fun s h1 => ?_
  refine .string h1 rfl fun separator _ => ?_
  exact .answers _

theorem obeys_join {resolved : FutureId → Bool} :
    Obeys [[.list], [.string]] values fun name => join resolved ⟨name, values⟩ := by
  refine .list acceptedBefore_zero rfl fun items h1 => ?_
  refine .string h1 rfl fun separator _ => ?_
  exact .answers _

/-- Positions that are not out of bounds stand in order, up to the length. -/
theorem bounds_of_not_outOfBounds {start stop : Int64} {length : Nat}
    (h : ¬ outOfBounds start stop length) :
    0 ≤ start.toInt ∧ start.toInt ≤ stop.toInt ∧ stop.toInt ≤ length := by
  simp only [outOfBounds, Bool.or_eq_true, decide_eq_true_eq, not_or, Int64.lt_iff_toInt_lt] at h
  obtain ⟨⟨hstart, hstop⟩, hlength⟩ := h
  have hzero : (0 : Int64).toInt = 0 := rfl
  omega

/-- The difference of two positions in order is a position. -/
theorem position_gap {start stop : Int64} (hstart : 0 ≤ start.toInt)
    (hstop : start.toInt ≤ stop.toInt) :
    ∃ n, InRange.gap stop start = .ok n ∧
      InRange.position n = .ok (stop.toInt - start.toInt).toNat := by
  have hlt := stop.toInt_lt
  have hfits : Checked.Fits (stop.toInt - start.toInt) := ⟨by omega, by omega⟩
  have hint := Checked.toInt_ofInt hfits
  refine ⟨Int64.ofInt (stop.toInt - start.toInt), ?_, ?_⟩
  · rw [InRange.gap, Checked.sub?, Checked.ofInt_of_fits hfits]
  · rw [InRange.position_of_nonneg (by omega), hint]

theorem obeys_substring :
    Obeys [[.string], [.integer], [.integer]] values fun name => substring ⟨name, values⟩ := by
  refine .string acceptedBefore_zero rfl fun s h1 => ?_
  refine .int h1 rfl fun start h2 => ?_
  refine .int h2 rfl fun stop _ => ?_
  refine .ite (fun _ => .fail (by simp) (by simp)) fun hbounds => ?_
  obtain ⟨hstart, hstop, -⟩ := bounds_of_not_outOfBounds hbounds
  obtain ⟨n, hgap, hposition⟩ := position_gap hstart hstop
  simp only [InRange.position_of_nonneg hstart, hgap, hposition, Result.ok_bind]
  exact .answers _

theorem obeys_replace :
    Obeys [[.string], [.string], [.string]] values fun name => replace ⟨name, values⟩ := by
  refine .string acceptedBefore_zero rfl fun s h1 => ?_
  refine .string h1 rfl fun old h2 => ?_
  refine .string h2 rfl fun new _ => ?_
  exact .answers _

theorem obeys_mapped {f : List Char → List Char} :
    Obeys [[.string]] values fun name => mapped f ⟨name, values⟩ := by
  refine .string acceptedBefore_zero rfl fun s _ => ?_
  exact .answers _

theorem obeys_tested {test : List Char → List Char → Bool} :
    Obeys [[.string], [.string]] values fun name => tested test ⟨name, values⟩ := by
  refine .string acceptedBefore_zero rfl fun s h1 => ?_
  refine .string h1 rfl fun t _ => ?_
  exact .answers _

end Texts

/-! ## Lists -/

namespace Lists

theorem obeys_len :
    Obeys [[.string, .list, .mapping]] values fun name => len ⟨name, values⟩ := by
  refine .value rfl fun v hv => ?_
  cases v
  case string | list | mapping => exact .answers _
  all_goals exact .mismatch acceptedBefore_zero hv rfl (by simp [Value.kind])

theorem obeys_append :
    Obeys [[.list], Kind.all] values fun name => append ⟨name, values⟩ := by
  refine .list acceptedBefore_zero rfl fun items _ => ?_
  refine .value rfl fun item _ => ?_
  exact .answers _

theorem obeys_prepend :
    Obeys [[.list], Kind.all] values fun name => prepend ⟨name, values⟩ := by
  refine .list acceptedBefore_zero rfl fun items _ => ?_
  refine .value rfl fun item _ => ?_
  exact .answers _

theorem one_le_length {items : List Value} (h : ¬ items.isEmpty) : 1 ≤ items.length := by
  apply List.length_pos_iff.2
  simpa using h

theorem obeys_pop :
    Obeys [[.list]] values fun name => pop ⟨name, values⟩ := by
  refine .list acceptedBefore_zero rfl fun items _ => ?_
  refine .ite (fun _ => .fail (by simp) (by simp)) fun hempty => ?_
  have hpos := one_le_length hempty
  simp only [InRange.difference_of_le hpos, Result.ok_bind,
    InRange.slice_of_le (Nat.zero_le _) (Nat.sub_le items.length 1)]
  exact .answers _

theorem obeys_shift :
    Obeys [[.list]] values fun name => shift ⟨name, values⟩ := by
  refine .list acceptedBefore_zero rfl fun items _ => ?_
  refine .ite (fun _ => .fail (by simp) (by simp)) fun hempty => ?_
  have hpos := one_le_length hempty
  simp only [InRange.slice_of_le hpos (Nat.le_refl _)]
  exact .answers _

/-- Positions that are not out of bounds cut a part out of the list. -/
theorem positions_of_not_outOfBounds {start stop : Int64} {length : Nat}
    (h : ¬ Texts.outOfBounds start stop length) :
    InRange.position start = .ok start.toInt.toNat ∧ InRange.position stop = .ok stop.toInt.toNat ∧
      start.toInt.toNat ≤ stop.toInt.toNat ∧ stop.toInt.toNat ≤ length := by
  obtain ⟨hstart, hstop, hlength⟩ := Texts.bounds_of_not_outOfBounds h
  exact ⟨InRange.position_of_nonneg hstart,
    InRange.position_of_nonneg (Int.le_trans hstart hstop), by omega, by omega⟩

theorem obeys_slice :
    Obeys [[.list], [.integer], [.integer]] values fun name => slice ⟨name, values⟩ := by
  refine .list acceptedBefore_zero rfl fun items h1 => ?_
  refine .int h1 rfl fun start h2 => ?_
  refine .int h2 rfl fun stop _ => ?_
  refine .ite (fun _ => .fail (by simp) (by simp)) fun hbounds => ?_
  obtain ⟨hstart, hstop, hle, hin⟩ := positions_of_not_outOfBounds hbounds
  simp only [hstart, hstop, Result.ok_bind, InRange.slice_of_le hle hin]
  exact .answers _

/-- Every integer is brought to a position. -/
theorem clamp_eq (n : Int64) (length : Nat) : clamp n length = .ok (min n.toInt.toNat length) := by
  have hlt := n.toInt_lt
  have hfits : Checked.Fits (max 0 (min n.toInt length)) := ⟨by omega, by omega⟩
  have hint := Checked.toInt_ofInt hfits
  have hnonneg : 0 ≤ (Int64.ofInt (max 0 (min n.toInt length))).toInt := by omega
  rw [clamp, InRange.clamp_of_le (by omega), Result.ok_bind, InRange.position_of_nonneg hnonneg,
    hint]
  congr 1
  omega

theorem obeys_clampedSlice :
    Obeys [[.list], [.integer], [.integer]] values fun name => clampedSlice ⟨name, values⟩ := by
  refine .list acceptedBefore_zero rfl fun items h1 => ?_
  refine .int h1 rfl fun start h2 => ?_
  refine .int h2 rfl fun stop _ => ?_
  simp only [clamp_eq, Result.ok_bind]
  refine .ite (fun _ => .answers _) fun hle => ?_
  have hin : min stop.toInt.toNat items.length ≤ items.length := Nat.min_le_right _ _
  simp only [InRange.slice_of_le (Nat.le_of_not_le hle) hin]
  exact .answers _

theorem obeys_sort {resolved : FutureId → Bool} :
    Obeys [[.list]] values fun name => sort resolved ⟨name, values⟩ := by
  refine .list acceptedBefore_zero rfl fun items _ => ?_
  exact .answers _

theorem obeys_reverse :
    Obeys [[.list]] values fun name => reverse ⟨name, values⟩ := by
  refine .list acceptedBefore_zero rfl fun items _ => ?_
  exact .answers _

theorem obeys_concat :
    Obeys [[.list], [.list]] values fun name => concat ⟨name, values⟩ := by
  refine .list acceptedBefore_zero rfl fun items h1 => ?_
  refine .list h1 rfl fun others _ => ?_
  exact .answers _

theorem obeys_indexOf :
    Obeys [[.list], Kind.all] values fun name => indexOf ⟨name, values⟩ := by
  refine .list acceptedBefore_zero rfl fun items _ => ?_
  refine .value rfl fun v _ => ?_
  cases items.findIdx? fun item => item.equals v with
  | none => exact .answers _
  | some i => exact .answers _

theorem obeys_includes :
    Obeys [[.list], Kind.all] values fun name => includes ⟨name, values⟩ := by
  refine .list acceptedBefore_zero rfl fun items _ => ?_
  refine .value rfl fun v _ => ?_
  exact .answers _

theorem obeys_get :
    Obeys [[.list], [.integer]] values fun name => get ⟨name, values⟩ := by
  refine .list acceptedBefore_zero rfl fun items h1 => ?_
  refine .int h1 rfl fun i _ => ?_
  cases if 0 ≤ i.toInt then items[i.toInt.toNat]? else none with
  | none => exact .fail (by simp) (by simp)
  | some v => exact .answers _

theorem obeys_first :
    Obeys [[.list]] values fun name => first ⟨name, values⟩ := by
  refine .list acceptedBefore_zero rfl fun items _ => ?_
  exact .answers _

theorem obeys_last :
    Obeys [[.list]] values fun name => last ⟨name, values⟩ := by
  refine .list acceptedBefore_zero rfl fun items _ => ?_
  exact .answers _

end Lists

/-! ## Mappings -/

namespace Mappings

/-- A look at a mapping and a key, which `get`, `has` and `delete` begin with. -/
theorem obeys_keyed {f : Entries Value → String → Value} :
    Obeys [[.mapping], [.string]] values fun name => (do
      let entries ← (⟨name, values⟩ : Arguments).mapping 0
      let key ← (⟨name, values⟩ : Arguments).string 1
      return f entries key) := by
  refine .mapping acceptedBefore_zero rfl fun entries h1 => ?_
  refine .string h1 rfl fun key _ => ?_
  exact .answers _

theorem obeys_set :
    Obeys [[.mapping], [.string], Kind.all] values fun name => set ⟨name, values⟩ := by
  refine .mapping acceptedBefore_zero rfl fun entries h1 => ?_
  refine .string h1 rfl fun key _ => ?_
  refine .value rfl fun value _ => ?_
  exact .answers _

/-- An answer made of the entries alone. -/
theorem obeys_whole {f : Entries Value → Value} :
    Obeys [[.mapping]] values fun name => (do
      return f (← (⟨name, values⟩ : Arguments).mapping 0)) := by
  refine .mapping acceptedBefore_zero rfl fun entries _ => ?_
  exact .answers _

end Mappings

/-! ## Numbers -/

namespace Arithmetic

variable {sig : Signature}

theorem obeys_orOverflow {n? : Option Int64} :
    Obeys sig values fun name => orOverflow ⟨name, values⟩ n? := by
  cases n? with
  | none => exact .fail (by simp) (by simp)
  | some n => exact .answers _

theorem obeys_sqrt :
    Obeys [[.integer, .float]] values fun name => sqrt ⟨name, values⟩ := by
  refine .number acceptedBefore_zero rfl fun v _ _ => ?_
  exact .ite (fun _ => .fail (by simp) (by simp)) fun _ => .answers _

theorem obeys_abs :
    Obeys [[.integer, .float]] values fun name => abs ⟨name, values⟩ := by
  refine .number acceptedBefore_zero rfl fun v _ _ => ?_
  cases v
  case int n => exact obeys_orOverflow
  all_goals exact .answers _

theorem obeys_toIntegral {mode : Double.Rounding} :
    Obeys [[.integer, .float]] values fun name => toIntegral ⟨name, values⟩ mode := by
  refine .number acceptedBefore_zero rfl fun v _ _ => ?_
  cases v
  case int n => exact .answers _
  all_goals exact obeys_orOverflow

theorem obeys_pick {chooseLeft : Bool → Bool} :
    Obeys [[.integer, .float], [.integer, .float]] values fun name =>
      pick ⟨name, values⟩ chooseLeft := by
  refine .number acceptedBefore_zero rfl fun left _ h1 => ?_
  refine .number h1 rfl fun right _ _ => ?_
  exact .answers _

end Arithmetic

/-! ## Conversions and questions -/

namespace Conversions

/-- An answer made of any one value. -/
theorem obeys_any {f : Value → Value} :
    Obeys [Kind.all] values fun name => (do
      return f (← (⟨name, values⟩ : Arguments).value 0)) := by
  refine .value rfl fun v _ => ?_
  exact .answers _

theorem obeys_toNumber :
    Obeys [numberSources] values fun name => toNumber ⟨name, values⟩ := by
  refine .value rfl fun v hv => ?_
  cases v
  case int | float | bool => exact .answers _
  case string s =>
    simp only
    cases readNumber? s with
    | none => exact .fail (by simp) (by simp)
    | some v => exact .answers _
  all_goals exact .mismatch acceptedBefore_zero hv rfl (by simp [Value.kind, numberSources])

theorem obeys_toInt :
    Obeys [numberSources] values fun name => toInt ⟨name, values⟩ := by
  refine .value rfl fun v hv => ?_
  cases v
  case int | bool => exact .answers _
  case float x => exact Arithmetic.obeys_orOverflow
  case string s =>
    simp only
    cases readInteger? (stripBlanks s.toList) with
    | some n => exact .answers _
    | none =>
      cases readDouble? (stripBlanks s.toList) with
      | some x => exact Arithmetic.obeys_orOverflow
      | none => exact .fail (by simp) (by simp)
  all_goals exact .mismatch acceptedBefore_zero hv rfl (by simp [Value.kind, numberSources])

theorem obeys_isEmpty :
    Obeys [[.string, .list, .mapping, .null]] values fun name => isEmpty ⟨name, values⟩ := by
  refine .value rfl fun v hv => ?_
  cases v
  case null | string | list | mapping => exact .answers _
  all_goals exact .mismatch acceptedBefore_zero hv rfl (by simp [Value.kind])

theorem obeys_spawn :
    Obeys [[.builtin]] values fun name => spawn ⟨name, values⟩ := by
  refine .value rfl fun v hv => ?_
  cases v
  case builtin b => exact .fail (by simp) (by simp)
  all_goals exact .mismatch acceptedBefore_zero hv rfl (by simp [Value.kind])

end Conversions

/-! ## All computations -/

def Computation.signature : Computation → Signature
  | .split | .contains | .startsWith | .endsWith => [[.string], [.string]]
  | .join => [[.list], [.string]]
  | .substring => [[.string], [.integer], [.integer]]
  | .replace => [[.string], [.string], [.string]]
  | .trim | .toUpper | .toLower => [[.string]]
  | .len => [[.string, .list, .mapping]]
  | .append | .prepend | .indexOf | .includes => [[.list], Kind.all]
  | .pop | .shift | .sort | .reverse | .first | .last => [[.list]]
  | .slice | .clampedSlice => [[.list], [.integer], [.integer]]
  | .concat => [[.list], [.list]]
  | .get => [[.list], [.integer]]
  | .mapGet | .mapHas | .mapDelete => [[.mapping], [.string]]
  | .mapSet => [[.mapping], [.string], Kind.all]
  | .mapKeys | .mapValues | .mapClear | .mapEntries | .mapSize => [[.mapping]]
  | .toString | .toBool | .typeOf | .isNull => [Kind.all]
  | .toNumber | .toInt => [[.integer, .float, .bool, .string]]
  | .sqrt | .abs | .round | .floor | .ceil => [[.integer, .float]]
  | .min | .max => [[.integer, .float], [.integer, .float]]
  | .isEmpty => [[.string, .list, .mapping, .null]]
  | .spawn => [[.builtin]]

/-- A computation obeys its signature, whatever its arguments are. -/
theorem Computation.obeys (c : Computation) (resolved : FutureId → Bool) (values : List Value) :
    Obeys c.signature values fun name => c.run resolved ⟨name, values⟩ := by
  cases c
  case split => exact Texts.obeys_split
  case join => exact Texts.obeys_join
  case substring => exact Texts.obeys_substring
  case replace => exact Texts.obeys_replace
  case trim | toUpper | toLower => exact Texts.obeys_mapped
  case contains | startsWith | endsWith => exact Texts.obeys_tested
  case len => exact Lists.obeys_len
  case append => exact Lists.obeys_append
  case prepend => exact Lists.obeys_prepend
  case pop => exact Lists.obeys_pop
  case shift => exact Lists.obeys_shift
  case slice => exact Lists.obeys_slice
  case clampedSlice => exact Lists.obeys_clampedSlice
  case sort => exact Lists.obeys_sort
  case reverse => exact Lists.obeys_reverse
  case concat => exact Lists.obeys_concat
  case indexOf => exact Lists.obeys_indexOf
  case includes => exact Lists.obeys_includes
  case get => exact Lists.obeys_get
  case first => exact Lists.obeys_first
  case last => exact Lists.obeys_last
  case mapGet | mapHas | mapDelete => exact Mappings.obeys_keyed
  case mapSet => exact Mappings.obeys_set
  case mapKeys | mapValues | mapClear | mapEntries | mapSize => exact Mappings.obeys_whole
  case toString | toBool | typeOf | isNull => exact Conversions.obeys_any
  case toNumber => exact Conversions.obeys_toNumber
  case toInt => exact Conversions.obeys_toInt
  case sqrt => exact Arithmetic.obeys_sqrt
  case abs => exact Arithmetic.obeys_abs
  case round | floor | ceil => exact Arithmetic.obeys_toIntegral
  case min | max => exact Arithmetic.obeys_pick
  case isEmpty => exact Conversions.obeys_isEmpty
  case spawn => exact Conversions.obeys_spawn

end ScriptValues
