import Mathlib.Tactic.SplitIfs
import ScriptValues.Files.Tree

/-!
# The order of texts and of their bytes

UTF-8 keeps the order of code points: the bytes of two characters differ before either sequence
ends, and at the first difference the smaller character has the smaller byte. So texts are in the
order of their bytes.

* `utf8EncodeChar_append_lt`: characters, with anything behind their bytes.
* `lt_iff_utf8Bytes_lt`, `le_iff_utf8Bytes_le`: texts.
-/

namespace ScriptValues

theorem toNat_val_lt (c : Char) : c.val.toNat < 0x110000 := by
  have hvalid := c.valid
  simp only [UInt32.isValidChar, Nat.isValidChar] at hvalid
  omega

/-- The bytes of a smaller character come first, whatever follows them. -/
theorem utf8EncodeChar_append_lt {c d : Char} (h : c < d) (us vs : List UInt8) :
    String.utf8EncodeChar c ++ us < String.utf8EncodeChar d ++ vs := by
  have hlt : c.val.toNat < d.val.toNat := h
  have hmax := toNat_val_lt d
  -- the bytes behind the first one are the last digits of the code point in base 64
  have hsecond (n : Nat) : n / 4096 = n / 64 / 64 := by omega
  have hthird (n : Nat) : n / 262144 = n / 64 / 64 / 64 := by omega
  unfold String.utf8EncodeChar
  generalize c.val.toNat = m at hlt ⊢
  generalize d.val.toNat = n at hlt hmax ⊢
  -- of two characters that take different numbers of bytes, the first bytes differ
  simp only [hsecond, hthird]
  split_ifs <;>
    simp only [List.cons_append, List.nil_append, List.cons_lt_cons_iff, UInt8.lt_iff_toNat_lt,
      ← UInt8.toNat_inj, UInt8.toNat_ofNat'] <;>
    omega

theorem flatMap_utf8EncodeChar_lt {cs ds : List Char} (h : cs < ds) :
    cs.flatMap String.utf8EncodeChar < ds.flatMap String.utf8EncodeChar := by
  induction h with
  | @nil d ds =>
    obtain ⟨b, bs, hbytes⟩ := List.exists_cons_of_ne_nil (String.utf8EncodeChar_ne_nil (c := d))
    rw [List.flatMap_cons, hbytes]
    exact List.nil_lt_cons b _
  | rel hlt => exact utf8EncodeChar_append_lt hlt _ _
  | cons _ ih => exact List.append_left_lt ih

theorem utf8Bytes_eq_flatMap (s : String) :
    utf8Bytes s = s.toList.flatMap String.utf8EncodeChar := by
  have hbytes : s.toByteArray = (s.toList.flatMap String.utf8EncodeChar).toByteArray := by
    conv => lhs; rw [← String.ofList_toList (s := s)]
    rfl
  rw [utf8Bytes, String.toUTF8_eq_toByteArray, hbytes]
  simp

/-- Texts are in the order of their bytes. -/
theorem lt_iff_utf8Bytes_lt {s t : String} : s < t ↔ utf8Bytes s < utf8Bytes t := by
  rw [utf8Bytes_eq_flatMap, utf8Bytes_eq_flatMap]
  constructor
  · exact fun h => flatMap_utf8EncodeChar_lt h
  · intro h
    refine Decidable.byContradiction fun hge => ?_
    by_cases heq : s = t
    · rw [heq] at h
      exact List.lt_irrefl _ h
    · have hlt : t < s := Decidable.byContradiction fun hle =>
        heq (String.le_antisymm hle hge)
      exact List.lt_asymm h (flatMap_utf8EncodeChar_lt hlt)

theorem le_iff_utf8Bytes_le {s t : String} : s ≤ t ↔ utf8Bytes s ≤ utf8Bytes t :=
  not_congr lt_iff_utf8Bytes_lt

end ScriptValues
