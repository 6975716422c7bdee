import ScriptValues.Proofs.Rounding

/-!
# Which double is the nearest

The magnitudes of doubles are the rungs of a ladder: each one is further up than the one before it
by the step of its scale. A quotient is rounded to one of the first rungs exactly if it lies below
the middle between the last of these and the next one, the middle itself going to the even rung. All
else follows from this: rounding is monotone, no other double is closer to a number than the one it
is rounded to, and the doubles at the ends of the ladder, zero and infinity, begin where the last
middles are.

* `Double.nearestMagnitude_le_iff`: which quotients are rounded to one of the first rungs.
* `Double.RoundsTo`: the double nearest to a rational number, ties to the even significand.
* `Double.roundsTo_nearest`, `Double.RoundsTo.unique`: it is the one that `nearest` makes.
* `Double.isZero_nearest`, `Double.decode_nearest_eq_infinite`: what is rounded to the ends.
-/

namespace ScriptValues

namespace Double

variable {negative : Bool} {significand scale a b d m n k : Nat}

/-! ## The ladder of magnitudes -/

/-- The significand in the bits of a magnitude. -/
def significandOf (m : Nat) : Nat := if m < 2 ^ 52 then m else 2 ^ 52 + m % 2 ^ 52

/-- The units of the magnitude with these bits. The bits of infinity stand for the power of two that
follows the largest double. -/
def rung (m : Nat) : Nat := significandOf m * twoTo (m / 2 ^ 52 - 1)

/-- Twice the middle between a rung and the next one. -/
def halfway (k : Nat) : Nat := rung k + rung (k + 1)

/-- `a / d` units lie below the middle between rung `k` and the next one; the middle itself counts
if `k` is even. -/
def BelowHalf (k a d : Nat) : Prop := 2 * a < halfway k * d ∨ 2 * a = halfway k * d ∧ k % 2 = 0

/-- The rung with a significand at a scale. Its significand may be one step too large. -/
theorem rung_eq (hn : n ≤ 2 ^ 53) (hpos : 0 < scale → 2 ^ 52 ≤ n) :
    rung (scale * 2 ^ 52 + n) = n * twoTo scale := by
  unfold rung significandOf
  by_cases hsmall : scale * 2 ^ 52 + n < 2 ^ 52
  · have hscale : scale = 0 := by omega
    subst hscale
    have hfield : (0 * 2 ^ 52 + n) / 2 ^ 52 - 1 = 0 := by omega
    rw [if_pos hsmall, hfield, Nat.zero_mul, Nat.zero_add]
  · rw [if_neg hsmall]
    have hge : 2 ^ 52 ≤ n := by
      by_cases hscale : 0 < scale
      · exact hpos hscale
      · omega
    by_cases htop : n = 2 ^ 53
    · -- one step too large is the first significand of the next scale
      have hfield : (scale * 2 ^ 52 + n) / 2 ^ 52 - 1 = 1 + scale := by omega
      have hfraction : (scale * 2 ^ 52 + n) % 2 ^ 52 = 0 := by omega
      rw [hfield, hfraction, twoTo_add, htop, show twoTo 1 = 2 from rfl]
      ring
    · have hfield : (scale * 2 ^ 52 + n) / 2 ^ 52 - 1 = scale := by omega
      have hfraction : 2 ^ 52 + (scale * 2 ^ 52 + n) % 2 ^ 52 = n := by omega
      rw [hfield, hfraction]

theorem exists_split (m : Nat) :
    ∃ scale n, m = scale * 2 ^ 52 + n ∧ n < 2 ^ 53 ∧ (0 < scale → 2 ^ 52 ≤ n) := by
  refine ⟨m / 2 ^ 52 - 1, m - (m / 2 ^ 52 - 1) * 2 ^ 52, ?_, ?_, ?_⟩
  · omega
  · omega
  · intro hpos
    omega

theorem rung_zero : rung 0 = 0 := by decide

/-- The next rung is a step of the scale further up. -/
theorem rung_lt_succ (m : Nat) : rung m < rung (m + 1) := by
  obtain ⟨scale, n, rfl, hlt, hpos⟩ := exists_split m
  have hstep := twoTo_pos scale
  have hnext : rung (scale * 2 ^ 52 + (n + 1)) = (n + 1) * twoTo scale := by
    apply rung_eq hlt
    intro hscale
    have hge := hpos hscale
    omega
  rw [Nat.add_assoc, hnext, rung_eq (Nat.le_of_lt hlt) hpos, Nat.add_mul]
  omega

theorem rung_strictMono : StrictMono rung := strictMono_nat_of_lt_succ rung_lt_succ

theorem rung_inj (h : rung m = rung n) : m = n := rung_strictMono.injective h

theorem halfway_strictMono : StrictMono halfway := by
  apply strictMono_nat_of_lt_succ
  intro k
  have hfirst := rung_lt_succ k
  have hsecond := rung_lt_succ (k + 1)
  unfold halfway
  omega

/-! ## Where the rounding changes -/

/-- What is nearest to a significand lies above the middle before its rung. -/
theorem halfway_mul_le (hd : 0 < d) (hnear : IsNearest n a (d * 2 ^ scale)) (hn : n ≤ 2 ^ 53)
    (hpos : 0 < scale → 2 ^ 52 * (d * 2 ^ scale) ≤ a ∧ 2 ^ 52 ≤ n)
    (hk : k + 1 = scale * 2 ^ 52 + n) :
    halfway k * d ≤ 2 * a ∧ (k % 2 = 0 → halfway k * d < 2 * a) := by
  have hmul : rung (k + 1) * d = n * (d * 2 ^ scale) := by
    rw [hk, rung_eq hn fun hscale => (hpos hscale).2, show twoTo scale = 2 ^ scale from rfl]
    ring
  have hsplit : halfway k * d = rung k * d + rung (k + 1) * d := Nat.add_mul ..
  by_cases hpower : 0 < scale ∧ n = 2 ^ 52
  · -- it is not below the power of two, so it is above the middle before that
    obtain ⟨hscale, rfl⟩ := hpower
    have hge := (hpos hscale).1
    have hlt : rung k * d < rung (k + 1) * d :=
      Nat.mul_lt_mul_of_pos_right (rung_lt_succ k) hd
    omega
  · obtain ⟨before, rfl⟩ : ∃ before, n = before + 1 := by
      apply Nat.exists_eq_add_one.2
      by_contra hzero
      have hge : 0 < scale → 2 ^ 52 ≤ n := fun hscale => (hpos hscale).2
      omega
    have hkeq : k = scale * 2 ^ 52 + before := by omega
    have hbefore : rung k * d = before * (d * 2 ^ scale) := by
      have hge : 0 < scale → 2 ^ 52 ≤ before := by
        intro hscale
        have hnext := (hpos hscale).2
        omega
      rw [hkeq, rung_eq (by omega) hge, show twoTo scale = 2 ^ scale from rfl]
      ring
    have hsucc : (before + 1) * (d * 2 ^ scale) = before * (d * 2 ^ scale) + d * 2 ^ scale :=
      Nat.succ_mul ..
    have hlower := hnear.lower
    have hodd := hnear.lower_odd
    omega

/-- What is nearest to a significand lies below the middle after its rung. -/
theorem belowHalf_of_isNearest (hnear : IsNearest n a (d * 2 ^ scale)) (hn : n ≤ 2 ^ 53)
    (hge : 0 < scale → 2 ^ 52 ≤ n) : BelowHalf (scale * 2 ^ 52 + n) a d := by
  have hmul : rung (scale * 2 ^ 52 + n) * d = n * (d * 2 ^ scale) := by
    rw [rung_eq hn hge, show twoTo scale = 2 ^ scale from rfl]
    ring
  have hafter : (n + 1) * (d * 2 ^ scale) ≤ rung (scale * 2 ^ 52 + n + 1) * d := by
    by_cases htop : n = 2 ^ 53
    · -- the rung after a power of two is a step of the larger scale away
      subst htop
      have hrung : rung (scale * 2 ^ 52 + 2 ^ 53 + 1) = (2 ^ 52 + 1) * twoTo (1 + scale) := by
        rw [show scale * 2 ^ 52 + 2 ^ 53 + 1 = (1 + scale) * 2 ^ 52 + (2 ^ 52 + 1) by ring]
        apply rung_eq
        · omega
        · intro _
          omega
      have hdouble : (2 ^ 52 + 1) * twoTo (1 + scale) * d = (2 ^ 53 + 2) * (d * 2 ^ scale) := by
        rw [twoTo_add, show twoTo scale = 2 ^ scale from rfl, show twoTo 1 = 2 from rfl]
        ring
      rw [hrung, hdouble]
      exact Nat.mul_le_mul_right _ (by omega)
    · have hrung : rung (scale * 2 ^ 52 + (n + 1)) = (n + 1) * twoTo scale := by
        apply rung_eq
        · omega
        · intro hscale
          have h52 := hge hscale
          omega
      rw [Nat.add_assoc, hrung, show twoTo scale = 2 ^ scale from rfl]
      apply Nat.le_of_eq
      ring
  have hsplit : halfway (scale * 2 ^ 52 + n) * d =
      rung (scale * 2 ^ 52 + n) * d + rung (scale * 2 ^ 52 + n + 1) * d := Nat.add_mul ..
  have hsucc : (n + 1) * (d * 2 ^ scale) = n * (d * 2 ^ scale) + d * 2 ^ scale := Nat.succ_mul ..
  have hupper := hnear.upper
  have hodd := hnear.upper_odd
  unfold BelowHalf
  omega

theorem BelowHalf.mono (hd : 0 < d) (h : BelowHalf m a d) (hmk : m ≤ k) : BelowHalf k a d := by
  rcases Nat.eq_or_lt_of_le hmk with rfl | hlt
  · exact h
  · have hmul : halfway m * d < halfway k * d :=
      Nat.mul_lt_mul_of_pos_right (halfway_strictMono hlt) hd
    unfold BelowHalf at *
    omega

/-- What is rounded to one of the rungs up to `k`. -/
theorem nearestMagnitude_le_iff (hd : 0 < d) (hk : k < infinityBits) :
    nearestMagnitude a d ≤ k ↔ BelowHalf k a d := by
  obtain ⟨scale, n, hmagnitude, hnear, hn, hpos⟩ := exists_scale a hd
  have hle : nearestMagnitude a d ≤ k ↔ scale * 2 ^ 52 + n ≤ k := by omega
  rw [hle]
  constructor
  · intro hmk
    exact (belowHalf_of_isNearest hnear hn fun hscale => (hpos hscale).2).mono hd hmk
  · intro hbelow
    by_contra hgt
    obtain ⟨j, hj⟩ : ∃ j, scale * 2 ^ 52 + n = j + 1 := Nat.exists_eq_add_one.2 (by omega)
    have habove := halfway_mul_le hd hnear hn hpos hj.symm
    have hbelow' : BelowHalf j a d := hbelow.mono hd (by omega)
    unfold BelowHalf at hbelow'
    omega

theorem nearestMagnitude_mono (hd : 0 < d) (hab : a ≤ b) :
    nearestMagnitude a d ≤ nearestMagnitude b d := by
  have hle := nearestMagnitude_le_infinityBits a d
  by_cases hfinite : nearestMagnitude b d < infinityBits
  · have hbelow := (nearestMagnitude_le_iff hd hfinite).1 (Nat.le_refl (nearestMagnitude b d))
    rw [nearestMagnitude_le_iff hd hfinite]
    unfold BelowHalf at *
    omega
  · omega

/-- A rung is rounded to itself. -/
theorem nearestMagnitude_rung (hm : m ≤ infinityBits) : nearestMagnitude (rung m) 1 = m := by
  have hle := nearestMagnitude_le_infinityBits (rung m) 1
  have hupper : m < infinityBits → nearestMagnitude (rung m) 1 ≤ m := by
    intro hlt
    rw [nearestMagnitude_le_iff Nat.one_pos hlt]
    have hnext := rung_lt_succ m
    unfold BelowHalf halfway
    omega
  by_cases hzero : m = 0
  · have hpos : 0 < infinityBits := by decide +kernel
    have hle := hupper (by omega)
    omega
  · obtain ⟨j, rfl⟩ := Nat.exists_eq_add_one_of_ne_zero hzero
    have hlower : ¬ nearestMagnitude (rung (j + 1)) 1 ≤ j := by
      rw [nearestMagnitude_le_iff Nat.one_pos hm]
      have hnext := rung_lt_succ j
      unfold BelowHalf halfway
      omega
    omega

/-- What is rounded to a rung is not closer to a rung below it. -/
theorem add_rung_mul_le (hd : 0 < d) (hlt : k < nearestMagnitude a d) :
    (rung k + rung (nearestMagnitude a d)) * d ≤ 2 * a ∧
      (nearestMagnitude a d % 2 = 1 → (rung k + rung (nearestMagnitude a d)) * d < 2 * a) := by
  have hle := nearestMagnitude_le_infinityBits a d
  obtain ⟨j, hj⟩ : ∃ j, nearestMagnitude a d = j + 1 := Nat.exists_eq_add_one.2 (by omega)
  have hnot : ¬ BelowHalf j a d := by
    rw [← nearestMagnitude_le_iff hd (by omega)]
    omega
  have hmul : (rung k + rung (j + 1)) * d ≤ halfway j * d :=
    Nat.mul_le_mul_right d (Nat.add_le_add_right (rung_strictMono.monotone (by omega)) _)
  rw [hj]
  unfold BelowHalf at hnot
  omega

/-- What is rounded to a rung is not closer to a rung above it. -/
theorem le_add_rung_mul (hd : 0 < d) (hlt : nearestMagnitude a d < k) (hk : k ≤ infinityBits) :
    2 * a ≤ (rung (nearestMagnitude a d) + rung k) * d ∧
      (nearestMagnitude a d % 2 = 1 → 2 * a < (rung (nearestMagnitude a d) + rung k) * d) := by
  have hbelow : BelowHalf (nearestMagnitude a d) a d :=
    (nearestMagnitude_le_iff hd (by omega)).1 (Nat.le_refl _)
  have hmul : halfway (nearestMagnitude a d) * d ≤ (rung (nearestMagnitude a d) + rung k) * d :=
    Nat.mul_le_mul_right d (Nat.add_le_add_left (rung_strictMono.monotone hlt) _)
  unfold BelowHalf at hbelow
  omega

/-! ## Doubles as rational numbers -/

variable {x y : Float} {q p : ℚ}

def value? (x : Float) : Option ℚ :=
  match decode x with
  | .finite negative significand scale =>
    some ((signed negative significand : ℤ) * 2 ^ ((scale : ℤ) - 1074))
  | _ => none

/-- The number that a double stands for when numbers are rounded: a finite one for its value, an
infinity for the power of two that follows the largest double. -/
def mark? (x : Float) : Option ℚ :=
  match decode x with
  | .infinite negative => some ((signed negative 1 : ℤ) * 2 ^ 1024)
  | _ => value? x

/-- `x` is the double nearest to `q`: what any other double stands for is further away, or as far
away, and then the last bit of `x` is clear. -/
def RoundsTo (q : ℚ) (x : Float) : Prop :=
  ∃ p, mark? x = some p ∧ ∀ y r, mark? y = some r → r ≠ p →
    |p - q| < |r - q| ∨ |p - q| = |r - q| ∧ x.toBits.toNat % 2 = 0

theorem decodeBits_of_lt (negative : Bool) (h : m < infinityBits) :
    decodeBits (signBits negative + m) =
      .finite negative (significandOf m) (m / 2 ^ 52 - 1) := by
  have hinf : infinityBits = 2047 * 2 ^ 52 := rfl
  have h52 : twoTo 52 = 2 ^ 52 := rfl
  have hsign : ((signBits negative + m) / 2 ^ 63 % 2 == 1) = negative := by
    have h63 : (signBits negative + m) / 2 ^ 63 = signBits negative / 2 ^ 63 := by
      rcases signBits_eq negative with hbits | hbits
      · omega
      · omega
    rw [h63]
    cases negative <;> rfl
  have hexponent : (signBits negative + m) / 2 ^ 52 % 2048 = m / 2 ^ 52 := by
    rcases signBits_eq negative with hbits | hbits
    · omega
    · omega
  have hfraction : (signBits negative + m) % 2 ^ 52 = m % 2 ^ 52 := by
    rcases signBits_eq negative with hbits | hbits
    · omega
    · omega
  unfold decodeBits significandOf
  simp only [h52, show twoTo 63 = 2 ^ 63 from rfl, hsign, hexponent, hfraction]
  rw [if_neg (by omega)]
  by_cases hsmall : m < 2 ^ 52
  · have hzero : m / 2 ^ 52 = 0 := by omega
    rw [if_pos hzero, if_pos hsmall, hzero, Nat.mod_eq_of_lt hsmall]
  · rw [if_neg (by omega), if_neg hsmall]

theorem decodeBits_infinityBits (negative : Bool) :
    decodeBits (signBits negative + infinityBits) = .infinite negative := by
  cases negative
  · decide +kernel
  · decide +kernel

theorem decode_magnitude (negative : Bool) (h : m ≤ infinityBits) :
    decode (ofBits (signBits negative + m)) = decodeBits (signBits negative + m) := by
  have hinf : infinityBits = 2047 * 2 ^ 52 := rfl
  have hsign := signBits_eq negative
  apply decode_ofBits
  · omega
  · omega

@[simp] theorem signed_false (n : Nat) : signed false n = n := rfl

@[simp] theorem signed_true (n : Nat) : signed true n = -(n : ℤ) := rfl

theorem cast_twoTo (k : Nat) : (twoTo k : ℚ) = 2 ^ k := Nat.cast_pow 2 k

theorem cast_signed_mul (negative : Bool) (u v : Nat) :
    ((signed negative (u * v) : ℤ) : ℚ) = (signed negative u : ℤ) * v := by
  cases negative with
  | false => simp
  | true => simp

/-- The number at a rung, on one of the two sides of zero. -/
def rungValue (negative : Bool) (m : Nat) : ℚ := (signed negative (rung m) : ℤ) / 2 ^ 1074

/-- The value of a finite double in units, as a rational number. -/
theorem value_eq (x : Float) : value? x = (units? x).map fun u : ℤ => (u : ℚ) / unitsPerOne := by
  have hunits : (unitsPerOne : ℚ) = 2 ^ 1074 := cast_twoTo 1074
  unfold value? units?
  cases decode x with
  | nan => rfl
  | infinite negative => rfl
  | finite negative significand scale =>
    have hsigned : (if negative then -((significand * twoTo scale : Nat) : Int)
        else (significand * twoTo scale : Nat)) = signed negative (significand * twoTo scale) := rfl
    simp only [Option.map_some, hsigned, hunits]
    rw [cast_signed_mul, cast_twoTo, mul_div_assoc, zpow_sub₀ (by norm_num), zpow_natCast]
    rfl

theorem units_ofBits (negative : Bool) (h : m < infinityBits) :
    units? (ofBits (signBits negative + m)) = some (signed negative (rung m)) := by
  unfold units?
  rw [decode_magnitude negative (Nat.le_of_lt h), decodeBits_of_lt negative h]
  rfl

/-- The value of a finite double is the number at the rung of its magnitude. -/
theorem value_ofBits (negative : Bool) (h : m < infinityBits) :
    value? (ofBits (signBits negative + m)) = some (rungValue negative m) := by
  rw [value_eq, units_ofBits negative h, rungValue, Option.map_some,
    show (unitsPerOne : ℚ) = 2 ^ 1074 from cast_twoTo 1074]

/-- A double stands for the number at the rung of its magnitude. -/
theorem mark_ofBits (negative : Bool) (h : m ≤ infinityBits) :
    mark? (ofBits (signBits negative + m)) = some (rungValue negative m) := by
  have hdecode := decode_magnitude negative h
  unfold mark?
  rcases Nat.eq_or_lt_of_le h with rfl | hlt
  · have hrung : rung infinityBits = 1 * twoTo (1024 + 1074) := by decide +kernel
    rw [decodeBits_infinityBits] at hdecode
    simp only [hdecode]
    rw [rungValue, hrung, cast_signed_mul, cast_twoTo, pow_add, ← mul_assoc,
      mul_div_cancel_right₀ _ (by positivity)]
  · rw [decodeBits_of_lt negative hlt] at hdecode
    simp only [hdecode]
    exact value_ofBits negative hlt

/-- Every double but NaN has the sign and the magnitude of a rung. -/
theorem exists_bits (h : mark? x = some p) :
    ∃ negative m, m ≤ infinityBits ∧ x = ofBits (signBits negative + m) := by
  cases hdecode : decode x with
  | nan =>
    unfold mark? value? at h
    simp only [hdecode] at h
    cases h
  | infinite negative => exact ⟨negative, _, Nat.le_refl _, eq_ofBits_of_infinite hdecode⟩
  | finite negative significand scale =>
    obtain ⟨he, hx⟩ := eq_ofBits_of_finite hdecode
    have hinf : infinityBits = 2047 * 2 ^ 52 := rfl
    have hsig := he.lt_two_pow
    have hscale := he.scale_le
    exact ⟨negative, _, by omega, hx⟩

/-! ## Rounding to the nearest -/

theorem natAbs_signed_sub (negative : Bool) (u v : Nat) :
    (signed negative u - signed negative v).natAbs = ((u : ℤ) - v).natAbs := by
  cases negative with
  | false => rfl
  | true =>
    rw [signed_true, signed_true]
    omega

theorem natAbs_signed_not_sub (negative : Bool) (u v : Nat) :
    (signed (!negative) u - signed negative v).natAbs = u + v := by
  cases negative with
  | false =>
    rw [Bool.not_false, signed_true, signed_false]
    omega
  | true =>
    rw [Bool.not_true, signed_true, signed_false]
    omega

/-- No double but the one that a quotient is rounded to is closer to it, or as close unless the
last bit of that one is clear. -/
theorem distance_lt_or (hd : 0 < d) (hk : k ≤ infinityBits) {other : Bool}
    (hne : signed other (rung k) ≠ signed negative (rung (nearestMagnitude a d))) :
    (signed negative (rung (nearestMagnitude a d) * d) - signed negative a).natAbs <
        (signed other (rung k * d) - signed negative a).natAbs ∨
      (signed negative (rung (nearestMagnitude a d) * d) - signed negative a).natAbs =
        (signed other (rung k * d) - signed negative a).natAbs ∧
        nearestMagnitude a d % 2 = 0 := by
  have hbelow (j : Nat) (hj : j < nearestMagnitude a d) :=
    add_rung_mul_le (a := a) (k := j) hd hj
  have habove := le_add_rung_mul (a := a) (k := k) hd
  have hmono (j l : Nat) (hjl : j < l) : rung j * d < rung l * d :=
    Nat.mul_lt_mul_of_pos_right (rung_strictMono hjl) hd
  simp only [Nat.add_mul] at hbelow habove
  rw [natAbs_signed_sub]
  generalize nearestMagnitude a d = m at *
  by_cases hsign : other = negative
  · subst hsign
    rw [natAbs_signed_sub]
    rcases Nat.lt_trichotomy k m with hlt | rfl | hgt
    · have hfar := hbelow k hlt
      have hstep := hmono k m hlt
      omega
    · exact absurd rfl hne
    · have hfar := habove hgt hk
      have hstep := hmono m k hgt
      omega
  · -- on the other side of zero, so no closer than zero
    obtain rfl : other = !negative := by
      cases other <;> cases negative <;> simp_all
    have hzero : rung 0 * d = 0 := by rw [rung_zero, Nat.zero_mul]
    rw [natAbs_signed_not_sub]
    by_cases hm : m = 0
    · subst hm
      have hk0 : 0 < k := by
        apply Nat.pos_of_ne_zero
        rintro rfl
        rw [rung_zero] at hne
        cases negative <;> exact hne rfl
      have hstep := hmono 0 k hk0
      omega
    · have hfar := hbelow 0 (by omega)
      have hstep := hmono 0 m (by omega)
      omega

/-- The distance between two quotients with one denominator. -/
theorem abs_div_sub_div {c : ℚ} (hc : 0 < c) (i j : ℤ) :
    |(i : ℚ) / c - j / c| = ((i - j).natAbs : ℚ) / c := by
  rw [← sub_div, abs_div, abs_of_pos hc, Nat.cast_natAbs]
  push_cast
  rfl

/-- The double that a quotient of units is rounded to is the nearest one. -/
theorem roundsTo_nearest (negative : Bool) (a : Nat) (hd : 0 < d) :
    RoundsTo ((signed negative a : ℤ) / (d * 2 ^ 1074)) (nearest negative a d) := by
  have hle := nearestMagnitude_le_infinityBits a d
  have hd' : (0 : ℚ) < d := Nat.cast_pos.2 hd
  have hc : (0 : ℚ) < d * 2 ^ 1074 := by positivity
  -- over the common denominator the distances are whole numbers
  have hvalue (s : Bool) (m : Nat) :
      rungValue s m = (signed s (rung m * d) : ℤ) / (d * 2 ^ 1074) := by
    rw [rungValue, cast_signed_mul, mul_comm (d : ℚ), mul_div_mul_right _ _ (ne_of_gt hd')]
  refine ⟨_, mark_ofBits negative hle, ?_⟩
  intro y r hy hne
  obtain ⟨other, k, hk, rfl⟩ := exists_bits hy
  rw [mark_ofBits other hk] at hy
  obtain rfl := Option.some.inj hy
  have hinf : infinityBits = 2047 * 2 ^ 52 := rfl
  have hsign := signBits_eq negative
  have hbits : (nearest negative a d).toBits.toNat =
      signBits negative + nearestMagnitude a d := toBits_ofBits (by omega) (by omega)
  have hother : signed other (rung k) ≠ signed negative (rung (nearestMagnitude a d)) := by
    intro heq
    exact hne (by rw [rungValue, heq, rungValue])
  rw [hbits, hvalue, hvalue, abs_div_sub_div hc, abs_div_sub_div hc, div_lt_div_iff_of_pos_right hc,
    div_left_inj' (ne_of_gt hc), Nat.cast_lt, Nat.cast_inj]
  have hdistance := distance_lt_or (a := a) hd hk hother
  omega

/-! ## There is only one nearest double -/

/-- What a double stands for has its sign. -/
theorem isNegative_ofBits (negative : Bool) (h : m ≤ infinityBits) :
    isNegative (ofBits (signBits negative + m)) = negative := by
  unfold isNegative
  rw [decode_magnitude negative h]
  rcases Nat.eq_or_lt_of_le h with rfl | hlt
  · rw [decodeBits_infinityBits]
  · rw [decodeBits_of_lt negative hlt]

theorem toBits_mod_two (negative : Bool) (h : m ≤ infinityBits) :
    (ofBits (signBits negative + m)).toBits.toNat % 2 = m % 2 := by
  have hinf : infinityBits = 2047 * 2 ^ 52 := rfl
  have hsign := signBits_eq negative
  rw [toBits_ofBits (by omega) (by omega)]
  omega

theorem rungValue_inj {negative : Bool} (h : rungValue negative m = rungValue negative k) :
    m = k := by
  have hpow : (2 : ℚ) ^ 1074 ≠ 0 := by positivity
  have hsigned : signed negative (rung m) = signed negative (rung k) :=
    Int.cast_inj.1 ((div_left_inj' hpow).1 h)
  have habs := congrArg Int.natAbs hsigned
  rw [natAbs_signed, natAbs_signed] at habs
  exact rung_inj habs

/-- On one side of zero the numbers at the rungs are in order, upwards or downwards. -/
theorem rungValue_lt_or (negative : Bool) (h : m < k) :
    negative = false ∧ rungValue negative m < rungValue negative k ∨
      negative = true ∧ rungValue negative k < rungValue negative m := by
  have hpow : (0 : ℚ) < 2 ^ 1074 := by positivity
  have hrung := rung_strictMono h
  unfold rungValue
  rw [div_lt_div_iff_of_pos_right hpow, div_lt_div_iff_of_pos_right hpow, Int.cast_lt, Int.cast_lt]
  cases negative with
  | false => exact .inl ⟨rfl, Int.ofNat_lt.2 hrung⟩
  | true => exact .inr ⟨rfl, Int.neg_lt_neg (Int.ofNat_lt.2 hrung)⟩

/-- What lies between two numbers that are as far away is closer. -/
theorem abs_sub_lt_of_between {r t : ℚ} (heq : |p - q| = |r - q|)
    (h : p < t ∧ t < r ∨ r < t ∧ t < p) : |t - q| < |p - q| := by
  rw [abs_lt]
  rcases abs_cases (p - q) with ⟨hp, _⟩ | ⟨hp, _⟩
  · rcases abs_cases (r - q) with ⟨hr, _⟩ | ⟨hr, _⟩
    · rcases h with h | h <;> constructor <;> linarith
    · rcases h with h | h <;> constructor <;> linarith
  · rcases abs_cases (r - q) with ⟨hr, _⟩ | ⟨hr, _⟩
    · rcases h with h | h <;> constructor <;> linarith
    · rcases h with h | h <;> constructor <;> linarith

/-- Two rungs that are both as far away as the nearest one are one and the same. -/
theorem eq_of_nearest (hm : m ≤ infinityBits) (hk : k ≤ infinityBits)
    (hx : RoundsTo q (ofBits (signBits negative + m)))
    (hy : RoundsTo q (ofBits (signBits negative + k))) : m = k := by
  obtain ⟨p, hp, hfar⟩ := hx
  obtain ⟨r, hr, hfar'⟩ := hy
  obtain rfl := Option.some.inj ((mark_ofBits negative hm).symm.trans hp)
  obtain rfl := Option.some.inj ((mark_ofBits negative hk).symm.trans hr)
  rw [toBits_mod_two negative hm] at hfar
  rw [toBits_mod_two negative hk] at hfar'
  by_contra hmk
  have hne : rungValue negative k ≠ rungValue negative m := fun heq => hmk (rungValue_inj heq.symm)
  have hfirst := hfar _ _ hr hne
  have hsecond := hfar' _ _ hp hne.symm
  -- a tie is between even rungs, so there is a rung between them, and it is closer
  have htie : |rungValue negative m - q| = |rungValue negative k - q| := by
    rcases hfirst with hlt | heq
    · rcases hsecond with hgt | heq
      · exact absurd hlt (not_lt_of_gt hgt)
      · exact heq.1.symm
    · exact heq.1
  have heven : m % 2 = 0 := by
    rcases hfirst with hlt | heq
    · exact absurd htie (ne_of_lt hlt)
    · exact heq.2
  have heven' : k % 2 = 0 := by
    rcases hsecond with hlt | heq
    · exact absurd htie.symm (ne_of_lt hlt)
    · exact heq.2
  obtain ⟨j, hj⟩ : ∃ j, m < j ∧ j < k ∨ k < j ∧ j < m := ⟨(m + k) / 2, by omega⟩
  have hbetween : rungValue negative m < rungValue negative j ∧
        rungValue negative j < rungValue negative k ∨
      rungValue negative k < rungValue negative j ∧
        rungValue negative j < rungValue negative m := by
    rcases hj with ⟨hmj, hjk⟩ | ⟨hkj, hjm⟩
    · have hlow := rungValue_lt_or negative hmj
      have hhigh := rungValue_lt_or negative hjk
      cases negative <;> simp_all
    · have hlow := rungValue_lt_or negative hkj
      have hhigh := rungValue_lt_or negative hjm
      cases negative <;> simp_all
  have hcloser := abs_sub_lt_of_between htie hbetween
  have hjm : rungValue negative j ≠ rungValue negative m := by
    intro heq
    have hindex := rungValue_inj heq
    omega
  have hjle : j ≤ infinityBits := by omega
  rcases hfar _ _ (mark_ofBits negative hjle) hjm with hlt | heq
  · exact absurd hlt (not_lt_of_gt hcloser)
  · exact absurd heq.1.symm (ne_of_lt hcloser)

/-- The nearest double is determined, the sign of a zero apart. -/
theorem RoundsTo.unique (hx : RoundsTo q x) (hy : RoundsTo q y)
    (hsign : isNegative x = isNegative y) : x = y := by
  obtain ⟨p, hp, -⟩ := id hx
  obtain ⟨r, hr, -⟩ := id hy
  obtain ⟨negative, m, hm, rfl⟩ := exists_bits hp
  obtain ⟨other, k, hk, rfl⟩ := exists_bits hr
  rw [isNegative_ofBits negative hm, isNegative_ofBits other hk] at hsign
  subst hsign
  rw [eq_of_nearest hm hk hx hy]

/-! ## The ends of the ladder -/

theorem isZero_ofBits (negative : Bool) (h : m ≤ infinityBits) :
    isZero (ofBits (signBits negative + m)) ↔ m = 0 := by
  have hinf : infinityBits = 2047 * 2 ^ 52 := rfl
  have hsign := signBits_eq negative
  rw [isZero_iff, toBits_ofBits (by omega) (by omega)]
  omega

theorem decode_ofBits_eq_infinite (negative : Bool) (h : m ≤ infinityBits) :
    decode (ofBits (signBits negative + m)) = .infinite negative ↔ m = infinityBits := by
  rw [decode_magnitude negative h]
  constructor
  · intro hinfinite
    by_contra hne
    rw [decodeBits_of_lt negative (by omega)] at hinfinite
    cases hinfinite
  · rintro rfl
    exact decodeBits_infinityBits negative

/-- Half of the smallest positive double and less is rounded to zero. -/
theorem isZero_nearest (negative : Bool) (a : Nat) (hd : 0 < d) :
    isZero (nearest negative a d) ↔ (a : ℚ) / (d * 2 ^ 1074) ≤ 1 / 2 ^ 1075 := by
  have hfirst : halfway 0 = 1 := by decide +kernel
  have hzero : nearestMagnitude a d = 0 ↔ a * 2 ≤ 1 * d := by
    rw [← Nat.le_zero, nearestMagnitude_le_iff hd (by decide +kernel)]
    unfold BelowHalf
    rw [hfirst]
    omega
  have hpow : (0 : ℚ) < 2 ^ 1074 := by positivity
  have hsucc : (2 : ℚ) ^ 1075 = 2 * 2 ^ 1074 := pow_succ' 2 1074
  have hd' : (0 : ℚ) < d := Nat.cast_pos.2 hd
  rw [nearest, isZero_ofBits negative (nearestMagnitude_le_infinityBits a d), hzero, hsucc]
  generalize (2 : ℚ) ^ 1074 = units at hpow
  rw [div_le_div_iff₀ (by positivity) (by positivity), ← mul_assoc, ← mul_assoc,
    mul_le_mul_iff_of_pos_right hpow]
  exact_mod_cast Iff.rfl

/-- The last middle lies half a step above the largest double. -/
theorem cast_halfway_last :
    (halfway (infinityBits - 1) : ℚ) = 2 * ((2 ^ 1024 - 2 ^ 970) * 2 ^ 1074) := by
  have hlast : halfway (infinityBits - 1) + twoTo (970 + 1074 + 1) = twoTo (1024 + 1074 + 1) := by
    decide +kernel
  have hsplit (k : Nat) : (twoTo (k + 1074 + 1) : ℚ) = 2 ^ k * 2 ^ 1074 * 2 := by
    rw [cast_twoTo, pow_succ, pow_add]
  have hcast : (halfway (infinityBits - 1) : ℚ) + twoTo (970 + 1074 + 1) =
      twoTo (1024 + 1074 + 1) := by exact_mod_cast hlast
  rw [hsplit, hsplit] at hcast
  generalize (halfway (infinityBits - 1) : ℚ) = last at *
  generalize (2 : ℚ) ^ 1074 = units at *
  generalize (2 : ℚ) ^ 1024 = top at *
  generalize (2 : ℚ) ^ 970 = half at *
  linarith

/-- From half a step above the largest double on, the nearest one is infinite. -/
theorem decode_nearest_eq_infinite (negative : Bool) (a : Nat) (hd : 0 < d) :
    decode (nearest negative a d) = .infinite negative ↔
      (2 ^ 1024 - 2 ^ 970 : ℚ) ≤ a / (d * 2 ^ 1074) := by
  have hle := nearestMagnitude_le_infinityBits a d
  have hinf : infinityBits = 2047 * 2 ^ 52 := rfl
  have htop : nearestMagnitude a d = infinityBits ↔ halfway (infinityBits - 1) * d ≤ 2 * a := by
    have hiff := nearestMagnitude_le_iff (a := a) (k := infinityBits - 1) hd (by omega)
    unfold BelowHalf at hiff
    omega
  have hcast : halfway (infinityBits - 1) * d ≤ 2 * a ↔
      (halfway (infinityBits - 1) : ℚ) * d ≤ 2 * a := by exact_mod_cast Iff.rfl
  have hpow : (0 : ℚ) < 2 ^ 1074 := by positivity
  have hd' : (0 : ℚ) < d := Nat.cast_pos.2 hd
  rw [nearest, decode_ofBits_eq_infinite negative hle, htop, hcast, cast_halfway_last]
  generalize (2 : ℚ) ^ 1074 = units at hpow
  generalize (2 ^ 1024 - 2 ^ 970 : ℚ) = bound
  rw [le_div_iff₀ (by positivity), mul_assoc, mul_le_mul_iff_of_pos_left (by norm_num),
    mul_comm (d : ℚ), mul_assoc]

end Double

end ScriptValues
