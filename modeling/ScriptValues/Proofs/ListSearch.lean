import Mathlib.Order.Bounds.Basic
import ScriptValues.Proofs.NumberOrder
import ScriptValues.Proofs.Ranges

/-!
# Equal values, and looking for one in a list

Equality compares what two values hold: values are equal if both have a content and it is the same.
So equality is symmetric and transitive, and a value without a content, such as a list or NaN, is
not even equal to itself. `includes` and `indexOf` go by this equality, so they look for a content:
they do not tell equal values apart, and never find a value without a content.

* `Value.equals_iff`: equal values are those with the same content.
* `Value.equalityLaws`: the laws of equality on all values.
* `Lists.findingLaws`: every call of `includes` and `indexOf` on a list.
-/

namespace ScriptValues

/-! ## Contents -/

/-- What values of the kinds that are compared hold. A double holds its place, so that the two
zeros hold the same. -/
inductive Content where
  | null
  | bool (b : Bool)
  | integer (n : Int64)
  | float (place : ℤ)
  | string (s : String)

namespace Value

variable {u v w : Value}

def content? : Value → Option Content
  | .null => some .null
  | .bool b => some (.bool b)
  | .int n => some (.integer n)
  | .float x => (Double.place? x).map .float
  | .string s => some (.string s)
  | _ => none

theorem equals_iff_of_float {x y : Float} :
    (float x).equals (float y) ↔
      (float x).content? = (float y).content? ∧ (float x).content?.isSome := by
  simp only [equals, content?, Double.eq]
  cases Double.place? x with
  | none => simp
  | some a =>
    cases Double.place? y with
    | none => simp
    | some b => simp

/-- Values are equal if they have the same content. -/
theorem equals_iff : v.equals w ↔ v.content? = w.content? ∧ v.content?.isSome := by
  cases v with
  | null => cases w <;> simp [equals, content?]
  | bool b => cases w <;> simp [equals, content?]
  | int n => cases w <;> simp [equals, content?]
  | float x =>
    cases w with
    | float y => exact equals_iff_of_float
    | _ => simp [equals, content?]
  | string s => cases w <;> simp [equals, content?]
  | _ => simp [equals, content?]

theorem equals_symm (v w : Value) : v.equals w = w.equals v := by
  have hswap {v w : Value} (h : v.equals w) : w.equals v := by
    obtain ⟨hsame, hsome⟩ := equals_iff.1 h
    exact equals_iff.2 ⟨hsame.symm, hsame ▸ hsome⟩
  rw [Bool.eq_iff_iff]
  exact ⟨hswap, hswap⟩

theorem equals_trans (h : u.equals v) (h' : v.equals w) : u.equals w := by
  obtain ⟨hsame, hsome⟩ := equals_iff.1 h
  exact equals_iff.2 ⟨hsame.trans (equals_iff.1 h').1, hsome⟩

theorem equals_self_iff : v.equals v ↔ v.content?.isSome := by
  rw [equals_iff]
  exact and_iff_right rfl

/-- Equal values are equal to the same values. -/
theorem equals_congr (h : v.equals w) (u : Value) : u.equals v = u.equals w := by
  have hback : w.equals v := (equals_symm w v).trans h
  rw [Bool.eq_iff_iff]
  constructor
  · intro huv
    exact equals_trans huv h
  · intro huw
    exact equals_trans huw hback

/-- The values without a content. -/
def IsIncomparable (v : Value) : Prop :=
  v.kind ∈ [Kind.list, .mapping, .error, .builtin, .future] ∨ v.IsNaN

theorem content_eq_none_iff : v.content? = none ↔ v.IsIncomparable := by
  unfold IsIncomparable
  cases v with
  | float x => simp [content?, kind, Double.place_eq_none_iff]
  | _ => simp [content?, kind, IsNaN]

structure EqualityLaws : Prop where
  symm (v w : Value) : v.equals w = w.equals v
  trans {u v w : Value} : u.equals v → v.equals w → u.equals w
  /-- Scalars equal themselves, NaN apart. -/
  self (v : Value) :
    v.equals v ↔ v.kind ∈ [Kind.null, .bool, .integer, .string, .float] ∧ ¬ v.IsNaN

theorem equalityLaws : EqualityLaws where
  symm := equals_symm
  trans := equals_trans
  self := by
    intro v
    have hsplit : v.kind ∈ [Kind.null, .bool, .integer, .string, .float] ↔
        v.kind ∉ [Kind.list, .mapping, .error, .builtin, .future] := by
      cases v.kind <;> decide
    rw [equals_self_iff, Option.isSome_iff_ne_none, Ne, content_eq_none_iff, hsplit]
    exact not_or

end Value

/-! ## Looking for a value in a list -/

namespace Lists

open Builtin

variable {items : List Value} {item v w : Value} {n : Int64} {i : Nat}

theorem gives_includes (items : List Value) (v : Value) :
    Gives "includes" [.list items, v] (.ok (.bool (items.any fun item => item.equals v))) :=
  gives_of_run rfl rfl fun _ => rfl

theorem gives_includes_false (h : ∀ item ∈ items, ¬ item.equals v) :
    Gives "includes" [.list items, v] (.ok (.bool false)) := by
  have hnone : (items.any fun item => item.equals v) = false := List.any_eq_false.2 h
  have hincludes := gives_includes items v
  rwa [hnone] at hincludes

/-- What `indexOf` makes of the position that it finds. -/
def indexOrMinusOne : Option Nat → Int64
  | some i => .ofNat i
  | none => -1

theorem gives_indexOf (items : List Value) (v : Value) :
    Gives "indexOf" [.list items, v]
      (.ok (.int (indexOrMinusOne (items.findIdx? fun item => item.equals v)))) := by
  apply gives_of_run rfl rfl
  intro _
  show indexOf ⟨"indexOf", [.list items, v]⟩ = _
  unfold indexOf
  rw [Arguments.list_eq_ok.2 rfl, Arguments.value_eq_ok.2 rfl, Result.ok_bind, Result.ok_bind]
  cases items.findIdx? fun item => item.equals v with
  | none => rfl
  | some i => rfl

/-- `get` answers what stands at a position; any other integer is reported with the length. -/
theorem gives_get_or_index (items : List Value) (n : Int64) :
    Gives "get" [.list items, .int n]
      (match if 0 ≤ n.toInt then items[n.toInt.toNat]? else none with
        | some item => .ok item
        | none => .error (.failure ⟨"get", .index n items.length⟩)) :=
  gives_of_run rfl rfl fun _ => rfl

theorem gives_get (h : 0 ≤ n.toInt) (hitem : items[n.toInt.toNat]? = some item) :
    Gives "get" [.list items, .int n] (.ok item) := by
  have hget := gives_get_or_index items n
  rwa [if_pos h, hitem] at hget

/-- `i` is the first position at which the list has an element that equals `v`. -/
def FirstAt (items : List Value) (v : Value) (i : Nat) : Prop :=
  IsLeast {j : Nat | ∃ item, items[j]? = some item ∧ item.equals v} i

theorem firstAt_of_findIdx? (h : (items.findIdx? fun item => item.equals v) = some i) :
    FirstAt items v i := by
  obtain ⟨hi, hequals, hbefore⟩ := List.findIdx?_eq_some_iff_getElem.1 h
  constructor
  · exact ⟨_, List.getElem?_eq_getElem hi, hequals⟩
  · rintro j ⟨item, hj, hitem⟩
    by_contra hlt
    obtain ⟨hlength, rfl⟩ := List.getElem?_eq_some_iff.1 hj
    exact hbefore j (Nat.lt_of_not_le hlt) hitem

/-- Before the first position there is no such element. -/
theorem FirstAt.not_equals (h : FirstAt items v i) (hitem : item ∈ items.take i) :
    ¬ item.equals v := by
  intro hequals
  obtain ⟨j, hj⟩ := List.mem_iff_getElem?.1 hitem
  rw [List.getElem?_take] at hj
  split at hj
  · next hlt =>
    have hle : i ≤ j := h.2 ⟨item, hj, hequals⟩
    omega
  · cases hj

/-- What `indexOf` answers when it finds something. -/
structure FoundAt (items : List Value) (v : Value) (n : Int64) : Prop where
  nonneg : 0 ≤ n.toInt
  first : FirstAt items v n.toInt.toNat
  element : ∃ item, Gives "get" [.list items, .int n] (.ok item) ∧ item.equals v
  before : ∃ front, Gives "slice" [.list items, .int 0, .int n] (.ok front) ∧
    Gives "includes" [front, v] (.ok (.bool false))

theorem FirstAt.foundAt (h : FirstAt items v i) (hn : n.toInt = i) : FoundAt items v n := by
  obtain ⟨⟨item, hitem, hequals⟩, -⟩ := id h
  have hi : n.toInt.toNat = i := by omega
  have hlt : i < items.length := (List.getElem?_eq_some_iff.1 hitem).1
  rw [← hi] at h hitem
  have hnonneg : 0 ≤ n.toInt := by omega
  constructor
  · exact hnonneg
  · exact h
  · exact ⟨item, gives_get hnonneg hitem, hequals⟩
  · refine ⟨_, gives_slice ⟨Int.le_refl _, hnonneg, by omega⟩, gives_includes_false ?_⟩
    intro earlier hearlier
    exact h.not_equals (List.mem_of_mem_drop hearlier)

theorem findIdx?_eq_none (h : ∀ item ∈ items, ¬ item.equals v) :
    (items.findIdx? fun item => item.equals v) = none := by
  rw [List.findIdx?_eq_none_iff]
  intro item hitem
  exact Bool.eq_false_of_not_eq_true (h item hitem)

/-- `indexOf` answers a position exactly if some element equals the value, and then the first. -/
theorem exists_indexOf (h : items.length < 2 ^ 63) (v : Value) :
    ∃ n : Int64, Gives "indexOf" [.list items, v] (.ok (.int n)) ∧
      (n ≠ -1 ↔ ∃ item ∈ items, item.equals v) ∧ (n ≠ -1 → FoundAt items v n) := by
  have hindexOf := gives_indexOf items v
  cases hfound : items.findIdx? fun item => item.equals v with
  | none =>
    rw [hfound] at hindexOf
    have hnot : ¬ ∃ item ∈ items, item.equals v := by
      rintro ⟨item, hitem, hequals⟩
      have hdiffers := List.findIdx?_eq_none_iff.1 hfound item hitem
      rw [hequals] at hdiffers
      cases hdiffers
    exact ⟨-1, hindexOf, ⟨fun hne => absurd rfl hne, fun hex => absurd hex hnot⟩,
      fun hne => absurd rfl hne⟩
  | some i =>
    rw [hfound] at hindexOf
    have hfirst := firstAt_of_findIdx? hfound
    obtain ⟨item, hitem, hequals⟩ := hfirst.1
    have hlt : i < items.length := (List.getElem?_eq_some_iff.1 hitem).1
    have hfits : Checked.Fits (i : ℤ) := ⟨by omega, by omega⟩
    have hn : (Int64.ofNat i).toInt = i := Checked.toInt_ofInt hfits
    have hne : Int64.ofNat i ≠ -1 := by
      intro heq
      have hminus : (-1 : Int64).toInt = -1 := rfl
      rw [heq] at hn
      omega
    exact ⟨_, hindexOf, ⟨fun _ => ⟨item, List.mem_of_getElem? hitem, hequals⟩, fun _ => hne⟩,
      fun _ => hfirst.foundAt hn⟩

/-- Equal values are looked for by the same test. -/
theorem test_eq (h : v.equals w) :
    (fun item : Value => item.equals v) = fun item => item.equals w :=
  funext fun item => Value.equals_congr h item

theorem not_equals_of_isIncomparable (h : v.IsIncomparable) (item : Value) :
    ¬ item.equals v := by
  intro hequals
  obtain ⟨hsame, hsome⟩ := Value.equals_iff.1 hequals
  rw [hsame, Value.content_eq_none_iff.2 h] at hsome
  cases hsome

structure FindingLaws (items : List Value) (v : Value) : Prop where
  included : Decides "includes" [.list items, v] (∃ item ∈ items, item.equals v)
  position : ∃ n : Int64, Gives "indexOf" [.list items, v] (.ok (.int n)) ∧
    (n ≠ -1 ↔ ∃ item ∈ items, item.equals v) ∧ (n ≠ -1 → FoundAt items v n)
  /-- A value that equals the one looked for is found in the same lists and at the same places. -/
  interchangeable : ∀ w, v.equals w → ∃ r r',
    Gives "includes" [.list items, v] r ∧ Gives "includes" [.list items, w] r ∧
    Gives "indexOf" [.list items, v] r' ∧ Gives "indexOf" [.list items, w] r'
  /-- A value that does not equal itself is not found, be it in the list or not. -/
  never : v.IsIncomparable →
    Gives "includes" [.list items, v] (.ok (.bool false)) ∧
    Gives "indexOf" [.list items, v] (.ok (.int (-1)))

/-- Searching goes by equality, in every list of which the positions are integers of the language:
every list that fits in memory. -/
theorem findingLaws (h : items.length < 2 ^ 63) (v : Value) :
    Value.EqualityLaws ∧ FindingLaws items v := by
  refine ⟨Value.equalityLaws, ?_⟩
  constructor
  · exact ⟨_, gives_includes items v, List.any_eq_true⟩
  · exact exists_indexOf h v
  · intro w hw
    have hincludes := gives_includes items v
    have hindexOf := gives_indexOf items v
    rw [test_eq hw] at hincludes hindexOf
    exact ⟨_, _, hincludes, gives_includes items w, hindexOf, gives_indexOf items w⟩
  · intro hv
    have hnot : ∀ item ∈ items, ¬ item.equals v :=
      fun item _ => not_equals_of_isIncomparable hv item
    have hindexOf := gives_indexOf items v
    rw [findIdx?_eq_none hnot] at hindexOf
    exact ⟨gives_includes_false hnot, hindexOf⟩

/-- A list that holds NaN, itself a list, and both zeros, of which the negative one comes first. -/
def mixedItems : List Value :=
  [.float Double.notANumber, .list [], .int 0, .float (Double.ofBits (Double.signBits true)),
    .float (Double.ofInt 0)]

theorem findingLaws_mixedItems : mixedItems.length < 2 ^ 63 ∧
    Value.EqualityLaws ∧ FindingLaws mixedItems (.float (Double.ofInt 0)) :=
  ⟨by decide, findingLaws (by decide) _⟩

end Lists

end ScriptValues
