import Mathlib
import ScriptValues.Number.Double

/-!
# The bits of doubles

A double keeps the bits it was made of, except that there is only one NaN. So what `Double.decode`
reads off a double made by `Double.ofBits` is what the bits say, and the double nearest to an
integer of 64 bits is finite, and zero only for zero.

* `Double.toBits_ofBits`: the bits come back.
* `Double.isZero_iff`: the doubles that count as zero.
* `Double.isFinite_ofInt`: the double of an integer is finite.
-/

namespace ScriptValues

namespace Double

open Float.Model Float.Model.UnpackedFloat

/-! ## Reading the bits back -/

theorem toNat_unpackMantissa (b : BitVec Format.binary64.numBits) :
    (unpackMantissa b).toNat = b.toNat % 2 ^ 52 := by
  simp [unpackMantissa]

theorem toNat_unpackExponent (b : BitVec Format.binary64.numBits) :
    (unpackExponent b).toNat = b.toNat / 2 ^ 52 % 2 ^ 11 := by
  simp [unpackExponent, Nat.shiftRight_eq_div_pow]

/-- The bits of a NaN are, but for the sign, those above the bits of infinity. -/
theorem isNaNBits_eq_false {b : BitVec Format.binary64.numBits}
    (h : b.toNat % 2 ^ 63 ≤ infinityBits) : isNaNBits b = false := by
  have hinf : infinityBits = 2047 * 2 ^ 52 := rfl
  unfold isNaNBits
  rw [decide_eq_false_iff_not]
  rintro ⟨hones, hmantissa⟩
  apply hmantissa
  apply BitVec.eq_of_toNat_eq
  have hexp : b.toNat / 2 ^ 52 % 2 ^ 11 = 2047 := by
    rw [← toNat_unpackExponent, hones]
    rfl
  rw [toNat_unpackMantissa]
  show b.toNat % 2 ^ 52 = 0
  omega

/-- A double has the bits it was made of, if they are not those of a NaN. -/
theorem toBits_ofBits {n : Nat} (hlt : n < 2 ^ 64) (h : n % 2 ^ 63 ≤ infinityBits) :
    (ofBits n).toBits.toNat = n := by
  have hn : (UInt64.ofNat n).toBitVec.toNat = n := by
    show n % 2 ^ 64 = n
    omega
  have hnumber : @isNaNBits Format.binary64 (UInt64.ofNat n).toBitVec = false := by
    apply isNaNBits_eq_false
    rw [hn]
    exact h
  show (UnpackedFloat.pack Format.binary64
    (UnpackedFloat.unpack Format.binary64 (UInt64.ofNat n).toBitVec)).toNat = n
  rw [pack_unpack, hnumber]
  exact hn

theorem decode_ofBits {n : Nat} (hlt : n < 2 ^ 64) (h : n % 2 ^ 63 ≤ infinityBits) :
    decode (ofBits n) = decodeBits n := by
  rw [decode, toBits_ofBits hlt h]

theorem decode_notANumber : decode notANumber = .nan := by
  decide +kernel

theorem toBits_lt (x : Float) : x.toBits.toNat < 2 ^ 64 := x.toBits.toNat_lt

theorem isZero_iff_decode (x : Float) :
    isZero x ↔ ∃ negative scale, decode x = .finite negative 0 scale := by
  unfold isZero place? units?
  cases decode x with
  | nan => simp
  | infinite negative =>
    have hpos := twoTo_pos 2100
    generalize twoTo 2100 = outside at hpos
    have hne : ¬ outside = 0 := by omega
    cases negative <;> simp [hne]
  | finite negative significand scale =>
    have hpos := twoTo_pos scale
    rw [decide_eq_true_iff]
    constructor
    · intro hzero
      have hmagnitude : significand * twoTo scale = 0 := by
        have hvalue := Option.some.inj hzero
        split at hvalue <;> omega
      have hsignificand : significand = 0 := (Nat.mul_eq_zero.1 hmagnitude).resolve_right (by omega)
      exact ⟨negative, scale, by rw [hsignificand]⟩
    · rintro ⟨negative', scale', heq⟩
      obtain ⟨rfl, rfl, rfl⟩ := Double.finite.inj heq
      simp only [Nat.zero_mul]
      split <;> rfl

theorem mod_of_decodeBits_zero {n : Nat} {negative : Bool} {scale : Nat}
    (h : decodeBits n = .finite negative 0 scale) : n % 2 ^ 63 = 0 := by
  have h52 : twoTo 52 = 2 ^ 52 := rfl
  unfold decodeBits at h
  simp only [h52] at h
  split at h
  · split at h <;> cases h
  · split at h
    · have hfraction := (Double.finite.inj h).2.1
      omega
    · have hfraction := (Double.finite.inj h).2.1
      omega

theorem decodeBits_zero {n : Nat} (h : n % 2 ^ 63 = 0) :
    decodeBits n = .finite (n / twoTo 63 % 2 == 1) 0 0 := by
  have h52 : twoTo 52 = 2 ^ 52 := rfl
  have hexp : n / twoTo 52 % 2048 = 0 := by
    rw [h52]
    omega
  have hfraction : n % twoTo 52 = 0 := by
    rw [h52]
    omega
  unfold decodeBits
  simp only [hexp, hfraction]
  rfl

/-- Both zeros count as zero, and nothing else: all bits but the sign are clear. -/
theorem isZero_iff (x : Float) : isZero x ↔ x.toBits.toNat % 2 ^ 63 = 0 := by
  rw [isZero_iff_decode]
  constructor
  · rintro ⟨negative, scale, h⟩
    exact mod_of_decodeBits_zero h
  · intro h
    exact ⟨_, _, decodeBits_zero h⟩

/-! ## The double nearest to an integer -/

theorem roundHalfEven_le (a d : Nat) : roundHalfEven a d ≤ a / d + 1 := by
  unfold roundHalfEven
  simp only
  split
  · omega
  · split <;> omega

theorem scaleOf_le {a k : Nat} (h : a < 2 ^ (53 + k)) : scaleOf a ≤ k := by
  unfold scaleOf
  split
  · omega
  · next hge =>
    have hne : a ≠ 0 := by
      have := twoTo_pos 53
      omega
    have hlog := (Nat.log2_lt hne).2 h
    omega

theorem one_le_scaleOf {a : Nat} (h : 2 ^ 53 ≤ a) : 1 ≤ scaleOf a := by
  have h53 : twoTo 53 = 2 ^ 53 := rfl
  unfold scaleOf
  rw [if_neg (by omega)]
  have hlog := (Nat.le_log2 (by omega : a ≠ 0)).2 h
  omega

/-- At its scale a significand has at most 53 bits. -/
theorem div_scaleOf_lt (a : Nat) : a / 2 ^ scaleOf a < 2 ^ 53 := by
  have h53 : twoTo 53 = 2 ^ 53 := rfl
  unfold scaleOf
  split
  · rw [Nat.pow_zero, Nat.div_one]
    omega
  · next hge =>
    have hne : a ≠ 0 := by omega
    have hlog := (Nat.le_log2 hne).2 (by omega : 2 ^ 53 ≤ a)
    have hlt : a < 2 ^ (a.log2 + 1) := (Nat.log2_lt hne).1 (Nat.lt_succ_self _)
    have hsplit : a.log2 + 1 = 53 + (a.log2 - 52) := by omega
    rw [hsplit, Nat.pow_add] at hlt
    rw [Nat.div_lt_iff_lt_mul (Nat.two_pow_pos _)]
    exact hlt

/-- A whole number of 64 bits, in units as small as `2 ^ k`, has a magnitude far from infinity. -/
theorem nearestMagnitude_le {m k : Nat} (h : m < 2 ^ 64) :
    nearestMagnitude (m * twoTo k) 1 ≤ (k + 13) * 2 ^ 52 := by
  have hlt : m * twoTo k < 2 ^ (53 + (k + 11)) := by
    have hsplit : 53 + (k + 11) = 64 + k := by omega
    rw [hsplit, Nat.pow_add]
    exact Nat.mul_lt_mul_of_pos_right h (twoTo_pos k)
  have hscale := scaleOf_le hlt
  have hdiv := div_scaleOf_lt (m * twoTo k)
  have hround := roundHalfEven_le (m * twoTo k) (2 ^ scaleOf (m * twoTo k))
  have h52 : twoTo 52 = 2 ^ 52 := rfl
  unfold nearestMagnitude
  simp only [Nat.div_one, Nat.one_mul, h52]
  apply Nat.le_trans (Nat.min_le_left _ _)
  calc scaleOf (m * twoTo k) * 2 ^ 52 + roundHalfEven (m * twoTo k) (2 ^ scaleOf (m * twoTo k))
      ≤ (k + 11) * 2 ^ 52 + 2 ^ 53 :=
        Nat.add_le_add (Nat.mul_le_mul_right _ hscale) (Nat.le_trans hround hdiv)
    _ = (k + 13) * 2 ^ 52 := by omega

/-- A whole number of large units is not rounded to zero. -/
theorem nearestMagnitude_pos {m k : Nat} (hm : 1 ≤ m) (hk : 53 ≤ k) :
    0 < nearestMagnitude (m * twoTo k) 1 := by
  have hle : 2 ^ 53 ≤ m * twoTo k :=
    calc 2 ^ 53 ≤ 2 ^ k := Nat.pow_le_pow_right (by decide) hk
      _ = 1 * twoTo k := (Nat.one_mul _).symm
      _ ≤ m * twoTo k := Nat.mul_le_mul_right _ hm
  have hscale := one_le_scaleOf hle
  have hpos : 0 < scaleOf (m * twoTo k) * twoTo 52 := Nat.mul_pos hscale (twoTo_pos 52)
  have hinf : 0 < infinityBits := Nat.mul_pos (by decide) (twoTo_pos 52)
  unfold nearestMagnitude
  simp only [Nat.div_one]
  generalize scaleOf (m * twoTo k) * twoTo 52 = magnitude at hpos
  generalize infinityBits = infinity at hinf
  omega

/-- The integers that fit in 64 bits, signed or unsigned. -/
def IsWord (n : Int) : Prop := -2 ^ 63 ≤ n ∧ n < 2 ^ 64

theorem signBits_eq (negative : Bool) :
    signBits negative = 0 ∨ signBits negative = 2 ^ 63 := by
  unfold signBits
  split
  · exact .inr rfl
  · exact .inl rfl

/-- The bits of the double nearest to an integer are its sign and a finite magnitude. -/
theorem toBits_ofInt {n : Int} (h : IsWord n) :
    (ofInt n).toBits.toNat =
        signBits (n < 0) + nearestMagnitude (n.natAbs * unitsPerOne) 1 ∧
      nearestMagnitude (n.natAbs * unitsPerOne) 1 ≤ 1087 * 2 ^ 52 := by
  have habs : n.natAbs < 2 ^ 64 := by
    obtain ⟨hlo, hhi⟩ := h
    omega
  have hle : nearestMagnitude (n.natAbs * unitsPerOne) 1 ≤ 1087 * 2 ^ 52 :=
    nearestMagnitude_le habs
  have hinf : infinityBits = 2047 * 2 ^ 52 := rfl
  have hsign := signBits_eq (n < 0)
  refine ⟨?_, hle⟩
  unfold ofInt nearest
  generalize nearestMagnitude (n.natAbs * unitsPerOne) 1 = magnitude at hle
  apply toBits_ofBits
  · omega
  · omega

/-- Next to a double, only the integer zero counts as zero. -/
theorem isZero_ofInt {n : Int} (h : IsWord n) : isZero (ofInt n) ↔ n = 0 := by
  obtain ⟨hbits, hle⟩ := toBits_ofInt h
  have hsign := signBits_eq (n < 0)
  rw [isZero_iff, hbits]
  constructor
  · intro hzero
    apply Classical.byContradiction
    intro hne
    have hpos : 0 < nearestMagnitude (n.natAbs * unitsPerOne) 1 :=
      nearestMagnitude_pos (by omega) (by decide)
    generalize nearestMagnitude (n.natAbs * unitsPerOne) 1 = magnitude at *
    omega
  · rintro rfl
    rw [Int.natAbs_zero, Nat.zero_mul]
    rfl

/-- A double that is a number: neither NaN nor infinite. -/
def IsFinite (x : Float) : Prop :=
  ∃ negative significand scale, decode x = .finite negative significand scale

theorem isFinite_of_bits {x : Float} (h : x.toBits.toNat % 2 ^ 63 < infinityBits) : IsFinite x := by
  have hinf : infinityBits = 2047 * 2 ^ 52 := rfl
  have hexp : x.toBits.toNat / twoTo 52 % 2048 ≠ 2047 := by
    rw [show twoTo 52 = 2 ^ 52 from rfl]
    omega
  unfold IsFinite decode decodeBits
  simp only
  rw [if_neg hexp]
  split
  · exact ⟨_, _, _, rfl⟩
  · exact ⟨_, _, _, rfl⟩

/-- The double nearest to an integer of 64 bits is finite. -/
theorem isFinite_ofInt {n : Int} (h : IsWord n) : IsFinite (ofInt n) := by
  obtain ⟨hbits, hle⟩ := toBits_ofInt h
  have hinf : infinityBits = 2047 * 2 ^ 52 := rfl
  have hsign := signBits_eq (n < 0)
  apply isFinite_of_bits
  rw [hbits]
  generalize nearestMagnitude (n.natAbs * unitsPerOne) 1 = magnitude at hle
  omega

end Double

end ScriptValues
