import ScriptValues.Number.Shortest
import ScriptValues.Proofs.DoubleBits

/-!
# Which numbers round to a double

The quotients in the interval of a double are those that round to it, at the scale of the double or,
just below a power of two, at the scale below. So whatever decimal the search for the shortest one
ends with, the double nearest to it is the one that was searched for, and no coarser decimal has the
same one.

* `Double.nearestMagnitude_eq_iff`: the quotients that round to a finite double.
* `Double.ofDecimal_of_holds`, `Double.holds_of_ofDecimal`: the decimals, of which none in the
  interval is cut off.
* `Shortest.holds_decimal`, `Shortest.le_decimal`: the search ends in the interval, on the coarsest
  grid that has a point there.
-/

namespace ScriptValues

namespace Double

/-- The significands and scales that the bits of finite doubles encode. -/
structure Encoded (significand scale : Nat) : Prop where
  lt_two_pow : significand < 2 ^ 53
  two_pow_le : 0 < scale → 2 ^ 52 ≤ significand
  scale_le : scale ≤ 2045

variable {negative : Bool} {significand scale a d : Nat}

/-- The bits of a finite double are its sign, and its scale above its significand. -/
theorem encoded_of_decodeBits {bits : Nat} (hlt : bits < 2 ^ 64)
    (h : decodeBits bits = .finite negative significand scale) :
    Encoded significand scale ∧ bits = signBits negative + (scale * 2 ^ 52 + significand) := by
  have h52 : twoTo 52 = 2 ^ 52 := rfl
  have h63 : twoTo 63 = 2 ^ 63 := rfl
  unfold decodeBits at h
  simp only [h52, h63] at h
  unfold signBits
  rw [h63]
  split at h
  · split at h <;> cases h
  · split at h
    · obtain ⟨rfl, rfl, rfl⟩ := Double.finite.inj h
      refine ⟨⟨by omega, by omega, by omega⟩, ?_⟩
      simp only [beq_iff_eq]
      split <;> omega
    · obtain ⟨rfl, rfl, rfl⟩ := Double.finite.inj h
      refine ⟨⟨by omega, by omega, by omega⟩, ?_⟩
      simp only [beq_iff_eq]
      split <;> omega

/-- The bits of an infinity. -/
theorem eq_of_decodeBits_infinite {bits : Nat} (hlt : bits < 2 ^ 64)
    (h : decodeBits bits = .infinite negative) : bits = signBits negative + infinityBits := by
  have h52 : twoTo 52 = 2 ^ 52 := rfl
  have h63 : twoTo 63 = 2 ^ 63 := rfl
  have hinf : infinityBits = 2047 * 2 ^ 52 := rfl
  unfold decodeBits at h
  simp only [h52, h63] at h
  unfold signBits
  rw [h63, hinf]
  split at h
  · split at h
    · cases Double.infinite.inj h
      simp only [beq_iff_eq]
      split <;> omega
    · cases h
  · split at h <;> cases h

/-- A double is the one that its bits make. -/
theorem ofBits_toBits (x : Float) : ofBits x.toBits.toNat = x := by
  rw [ofBits, UInt64.ofNat_toNat, Float.ofBits_toBits]

theorem eq_ofBits_of_finite {x : Float} {negative : Bool} {significand scale : Nat}
    (h : decode x = .finite negative significand scale) :
    Encoded significand scale ∧
      x = ofBits (signBits negative + (scale * 2 ^ 52 + significand)) := by
  obtain ⟨he, hbits⟩ := encoded_of_decodeBits (toBits_lt x) h
  exact ⟨he, hbits ▸ (ofBits_toBits x).symm⟩

theorem eq_ofBits_of_infinite {x : Float} {negative : Bool} (h : decode x = .infinite negative) :
    x = ofBits (signBits negative + infinityBits) :=
  eq_of_decodeBits_infinite (toBits_lt x) h ▸ (ofBits_toBits x).symm

/-! ## Rounding to the nearest whole number -/

/-- `a / d` is at most half a step from `n`, and less than that if `n` is odd. -/
structure IsNearest (n a d : Nat) : Prop where
  lower : 2 * (n * d) ≤ 2 * a + d
  upper : 2 * a ≤ 2 * (n * d) + d
  lower_odd : n % 2 = 1 → 2 * (n * d) < 2 * a + d
  upper_odd : n % 2 = 1 → 2 * a < 2 * (n * d) + d

theorem isNearest_roundHalfEven (hd : 0 < d) : IsNearest (roundHalfEven a d) a d := by
  have hsplit : a / d * d + a % d = a := Nat.div_add_mod' a d
  have hrest : a % d < d := Nat.mod_lt _ hd
  have heven : (a / d + a / d % 2) * d = a / d * d + a / d % 2 * d := Nat.add_mul ..
  unfold roundHalfEven
  simp only
  split
  · exact ⟨by omega, by omega, by omega, by omega⟩
  · split
    · have hsucc : (a / d + 1) * d = a / d * d + d := Nat.succ_mul ..
      exact ⟨by omega, by omega, by omega, by omega⟩
    · -- a tie: the quotient, or the number above it if the quotient is odd
      rcases Nat.mod_two_eq_zero_or_one (a / d) with hparity | hparity
      · rw [hparity] at heven ⊢
        exact ⟨by omega, by omega, by omega, by omega⟩
      · rw [hparity] at heven ⊢
        exact ⟨by omega, by omega, by omega, by omega⟩

theorem roundHalfEven_eq {n : Nat} (hd : 0 < d) (h : IsNearest n a d) : roundHalfEven a d = n := by
  obtain ⟨hlo, hhi, hloOdd, hhiOdd⟩ := h
  have hsplit : d * (a / d) + a % d = a := Nat.div_add_mod a d
  have hrest : a % d < d := Nat.mod_lt _ hd
  unfold roundHalfEven
  simp only
  generalize a / d = q at hsplit ⊢
  generalize a % d = r at hsplit hrest ⊢
  -- the quotient is the number or the one below it
  have hle : q ≤ n := by
    by_contra hgt
    have hmul : d * (n + 1) ≤ d * q := Nat.mul_le_mul_left d (by omega)
    rw [Nat.mul_add, Nat.mul_one, Nat.mul_comm d n] at hmul
    omega
  have hge : n ≤ q + 1 := by
    by_contra hgt
    have hmul : d * (q + 2) ≤ d * n := Nat.mul_le_mul_left d (by omega)
    rw [Nat.mul_add, Nat.mul_comm d n] at hmul
    omega
  obtain rfl | rfl : n = q ∨ n = q + 1 := by omega
  · rw [Nat.mul_comm d n] at hsplit
    split
    · rfl
    · split <;> omega
  · rw [Nat.mul_comm d q] at hsplit
    rw [Nat.add_mul, Nat.one_mul] at hlo hhi hloOdd hhiOdd
    split
    · omega
    · split <;> omega

/-! ## Rounding to a double -/

theorem scaleOf_eq {whole : Nat} (hhi : whole < 2 ^ (53 + scale))
    (hlo : 0 < scale → 2 ^ (52 + scale) ≤ whole) : scaleOf whole = scale := by
  apply Nat.le_antisymm (scaleOf_le hhi)
  rcases Nat.eq_zero_or_pos scale with rfl | hpos
  · exact Nat.zero_le _
  · have hge := hlo hpos
    have h53 : twoTo 53 = 2 ^ 53 := rfl
    have hmin : 2 ^ 53 ≤ 2 ^ (52 + scale) := Nat.pow_le_pow_right (by decide) (by omega)
    unfold scaleOf
    rw [if_neg (by omega)]
    have hlog := (Nat.le_log2 (by omega : whole ≠ 0)).2 hge
    omega

theorem two_pow_le_of_scaleOf {whole : Nat} (h : 0 < scaleOf whole) :
    2 ^ (52 + scaleOf whole) ≤ whole := by
  have h53 : twoTo 53 = 2 ^ 53 := rfl
  unfold scaleOf at *
  split at h
  · exact absurd h (Nat.lt_irrefl 0)
  · next hge =>
    have hlog : 52 + (whole.log2 - 52) = whole.log2 := by omega
    rw [if_neg hge, hlog]
    exact Nat.log2_self_le (by omega)

/-- The magnitude of a quotient whose scale and significand are known. -/
theorem nearestMagnitude_eq {n : Nat} (hd : 0 < d) (hhi : a < 2 ^ (53 + scale) * d)
    (hlo : 0 < scale → 2 ^ (52 + scale) * d ≤ a) (h : IsNearest n a (d * 2 ^ scale))
    (hfinite : scale * 2 ^ 52 + n ≤ infinityBits) :
    nearestMagnitude a d = scale * 2 ^ 52 + n := by
  have hscale : scaleOf (a / d) = scale :=
    scaleOf_eq ((Nat.div_lt_iff_lt_mul hd).2 hhi) fun hpos =>
      (Nat.le_div_iff_mul_le hd).2 (hlo hpos)
  have hround : roundHalfEven a (d * twoTo scale) = n :=
    roundHalfEven_eq (Nat.mul_pos hd (twoTo_pos scale)) h
  unfold nearestMagnitude
  simp only [hscale, hround]
  exact Nat.min_eq_left hfinite

/-- At the scale of a double, what is nearest to its significand rounds to it. -/
theorem nearestMagnitude_of_isNearest (he : Encoded significand scale) (hd : 0 < d)
    (h : IsNearest significand a (d * 2 ^ scale))
    (hlo : 0 < scale → 2 ^ 52 * (d * 2 ^ scale) ≤ a) :
    nearestMagnitude a d = scale * 2 ^ 52 + significand := by
  have hinf : infinityBits = 2047 * 2 ^ 52 := rfl
  have hpow (k : Nat) : 2 ^ (k + scale) * d = 2 ^ k * (d * 2 ^ scale) := by ring
  have hsig := he.lt_two_pow
  have hscale := he.scale_le
  have hstep : 0 < d * 2 ^ scale := Nat.mul_pos hd (Nat.two_pow_pos _)
  have hmul : significand * (d * 2 ^ scale) ≤ (2 ^ 53 - 1) * (d * 2 ^ scale) :=
    Nat.mul_le_mul_right _ (by omega)
  have hupper := h.upper
  apply nearestMagnitude_eq hd _ _ h
  · omega
  · rw [hpow]
    omega
  · rw [hpow]
    exact hlo

end Double

namespace Shortest

open Double

variable {significand scale a d : Nat}

/-- The interval of a double, except below a power of two: half a step to each side. -/
theorem Interval.contains_iff_isNearest (hs : ¬ (significand = 2 ^ 52 ∧ 0 < scale)) :
    (Interval.ofDouble significand scale).contains (4 * a) d ↔
      IsNearest significand a (d * 2 ^ scale) := by
  have h52 : twoTo 52 = 2 ^ 52 := rfl
  have hstep : twoTo scale = 2 ^ scale := rfl
  have hlow : (4 * significand * 2 ^ scale - 2 * 2 ^ scale) * d =
      4 * (significand * (d * 2 ^ scale)) - 2 * (d * 2 ^ scale) := by
    rw [Nat.sub_mul]
    ring_nf
  have hhigh : (4 * significand * 2 ^ scale + 2 * 2 ^ scale) * d =
      4 * (significand * (d * 2 ^ scale)) + 2 * (d * 2 ^ scale) := by ring
  simp only [contains, ofDouble, h52, hstep, Bool.and_eq_true, decide_eq_true_eq, if_neg hs, hlow,
    hhigh, beq_iff_eq]
  split
  · next heven =>
    simp only [Bool.and_eq_true, decide_eq_true_eq]
    constructor
    · intro h
      exact ⟨by omega, by omega, by omega, by omega⟩
    · rintro ⟨hlower, hupper, -, -⟩
      omega
  · next hodd =>
    have hmul : d * 2 ^ scale ≤ significand * (d * 2 ^ scale) :=
      Nat.le_mul_of_pos_left _ (by omega)
    simp only [Bool.and_eq_true, decide_eq_true_eq]
    constructor
    · intro h
      exact ⟨by omega, by omega, by omega, by omega⟩
    · rintro ⟨-, -, hlower, hupper⟩
      have hlower' := hlower (by omega)
      have hupper' := hupper (by omega)
      omega

/-- Below a power of two the interval reaches half a step of the scale below. -/
theorem Interval.contains_power_iff (hs : 0 < scale) :
    (Interval.ofDouble (2 ^ 52) scale).contains (4 * a) d ↔
      4 * (2 ^ 52 * (d * 2 ^ scale)) ≤ 4 * a + d * 2 ^ scale ∧
        4 * a ≤ 4 * (2 ^ 52 * (d * 2 ^ scale)) + 2 * (d * 2 ^ scale) := by
  have h52 : twoTo 52 = 2 ^ 52 := rfl
  have hstep : twoTo scale = 2 ^ scale := rfl
  have hlow : (4 * 2 ^ 52 * 2 ^ scale - 2 ^ scale) * d =
      4 * (2 ^ 52 * (d * 2 ^ scale)) - d * 2 ^ scale := by
    rw [Nat.sub_mul]
    ring_nf
  have hhigh : (4 * 2 ^ 52 * 2 ^ scale + 2 * 2 ^ scale) * d =
      4 * (2 ^ 52 * (d * 2 ^ scale)) + 2 * (d * 2 ^ scale) := by ring
  have heven : ((2 ^ 52 % 2 == 0) : Bool) = true := rfl
  simp only [contains, ofDouble, h52, hstep, Bool.and_eq_true, decide_eq_true_eq, hs, and_self,
    if_true, hlow, hhigh, heven]
  omega

end Shortest

namespace Double

open Shortest

variable {negative : Bool} {significand scale a d : Nat}

/-- Every quotient in the interval of a double rounds to it. -/
theorem nearestMagnitude_of_contains (he : Encoded significand scale) (hd : 0 < d)
    (h : (Interval.ofDouble significand scale).contains (4 * a) d) :
    nearestMagnitude a d = scale * 2 ^ 52 + significand := by
  by_cases hs : significand = 2 ^ 52 ∧ 0 < scale
  · obtain ⟨rfl, hpos⟩ := hs
    obtain ⟨hlower, hupper⟩ := (Interval.contains_power_iff hpos).1 h
    by_cases hcase : 2 ^ 52 * (d * 2 ^ scale) ≤ a
    · exact nearestMagnitude_of_isNearest he hd
        ⟨by omega, by omega, by omega, by omega⟩ fun _ => hcase
    -- below the power of two: a significand of `2 ^ 53` at the scale below, which carries
    · obtain ⟨below, rfl⟩ := Nat.exists_eq_add_one.2 hpos
      have hscale := he.scale_le
      have hinf : infinityBits = 2047 * 2 ^ 52 := rfl
      have hdouble : d * 2 ^ (below + 1) = 2 * (d * 2 ^ below) := by ring
      have hpow (k : Nat) : 2 ^ (k + below) * d = 2 ^ k * (d * 2 ^ below) := by ring
      have hstep : 0 < d * 2 ^ below := Nat.mul_pos hd (Nat.two_pow_pos _)
      rw [hdouble] at hlower hupper hcase
      have hround : nearestMagnitude a d = below * 2 ^ 52 + 2 ^ 53 := by
        apply nearestMagnitude_eq hd
        · rw [hpow]
          omega
        · rw [hpow]
          omega
        · exact ⟨by omega, by omega, by omega, by omega⟩
        · omega
      rw [hround]
      ring
  · have hnearest := (Interval.contains_iff_isNearest hs).1 h
    apply nearestMagnitude_of_isNearest he hd hnearest
    intro hpos
    have hge := he.two_pow_le hpos
    have hmul : (2 ^ 52 + 1) * (d * 2 ^ scale) ≤ significand * (d * 2 ^ scale) :=
      Nat.mul_le_mul_right _ (by omega)
    have hlower := hnearest.lower
    omega

/-- A magnitude is a scale above a nearest whole number of its steps, cut off at infinity. -/
theorem exists_scale (a : Nat) (hd : 0 < d) :
    ∃ scale n, nearestMagnitude a d = min (scale * 2 ^ 52 + n) infinityBits ∧
      IsNearest n a (d * 2 ^ scale) ∧ n ≤ 2 ^ 53 ∧
      (0 < scale → 2 ^ 52 * (d * 2 ^ scale) ≤ a ∧ 2 ^ 52 ≤ n) := by
  obtain ⟨scale, hscale⟩ : ∃ scale, scaleOf (a / d) = scale := ⟨_, rfl⟩
  have hstep : 0 < d * 2 ^ scale := Nat.mul_pos hd (Nat.two_pow_pos _)
  have hnearest : IsNearest (roundHalfEven a (d * 2 ^ scale)) a (d * 2 ^ scale) :=
    isNearest_roundHalfEven hstep
  refine ⟨scale, roundHalfEven a (d * 2 ^ scale), ?_, hnearest, ?_, ?_⟩
  · unfold nearestMagnitude
    simp only [hscale]
    rfl
  · have hle := roundHalfEven_le a (d * 2 ^ scale)
    have hlt := div_scaleOf_lt (a / d)
    rw [hscale, Nat.div_div_eq_div_mul] at hlt
    omega
  · intro hpos
    have hge : 2 ^ 52 * (d * 2 ^ scale) ≤ a := by
      have hwhole := two_pow_le_of_scaleOf (hscale ▸ hpos)
      rw [hscale, Nat.le_div_iff_mul_le hd] at hwhole
      calc 2 ^ 52 * (d * 2 ^ scale) = 2 ^ (52 + scale) * d := by ring
        _ ≤ a := hwhole
    refine ⟨hge, ?_⟩
    by_contra hlt
    have hmul : roundHalfEven a (d * 2 ^ scale) * (d * 2 ^ scale) ≤
        (2 ^ 52 - 1) * (d * 2 ^ scale) := Nat.mul_le_mul_right _ (by omega)
    have hupper := hnearest.upper
    omega

/-- A magnitude that is not rounded to infinity, at its scale. -/
theorem exists_isNearest (hd : 0 < d) (hfinite : nearestMagnitude a d < infinityBits) :
    ∃ scale n, nearestMagnitude a d = scale * 2 ^ 52 + n ∧ IsNearest n a (d * 2 ^ scale) ∧
      n ≤ 2 ^ 53 ∧ (0 < scale → 2 ^ 52 * (d * 2 ^ scale) ≤ a ∧ 2 ^ 52 ≤ n) := by
  obtain ⟨scale, n, hmagnitude, h⟩ := exists_scale a hd
  refine ⟨scale, n, ?_, h⟩
  omega

/-- Only the quotients in its interval round to a double. -/
theorem contains_of_nearestMagnitude (he : Encoded significand scale) (hd : 0 < d)
    (h : nearestMagnitude a d = scale * 2 ^ 52 + significand) :
    (Interval.ofDouble significand scale).contains (4 * a) d := by
  have hinf : infinityBits = 2047 * 2 ^ 52 := rfl
  have hsig := he.lt_two_pow
  have hnormal := he.two_pow_le
  have hscale := he.scale_le
  have hfinite : nearestMagnitude a d < infinityBits := by omega
  obtain ⟨k, n, hbits, hnearest, hle, hpos⟩ := exists_isNearest hd hfinite
  rw [h] at hbits
  rcases Nat.lt_or_ge n (2 ^ 53) with hn | hn
  · obtain ⟨rfl, rfl⟩ : scale = k ∧ significand = n := by omega
    by_cases hpower : significand = 2 ^ 52 ∧ 0 < scale
    · obtain ⟨rfl, hk⟩ := hpower
      have hge := (hpos hk).1
      have hupper := hnearest.upper
      rw [Interval.contains_power_iff hk]
      omega
    · exact (Interval.contains_iff_isNearest hpower).2 hnearest
  -- rounded up from the scale below the power of two
  · obtain ⟨rfl, rfl, rfl⟩ : n = 2 ^ 53 ∧ scale = k + 1 ∧ significand = 2 ^ 52 := by omega
    have hdouble : d * 2 ^ (k + 1) = 2 * (d * 2 ^ k) := by ring
    have hlower := hnearest.lower
    have hupper := hnearest.upper
    rw [Interval.contains_power_iff (Nat.succ_pos k), hdouble]
    omega

/-- The quotients that round to a finite double are those in its interval. -/
theorem nearestMagnitude_eq_iff (he : Encoded significand scale) (hd : 0 < d) :
    nearestMagnitude a d = scale * 2 ^ 52 + significand ↔
      (Interval.ofDouble significand scale).contains (4 * a) d :=
  ⟨contains_of_nearestMagnitude he hd, nearestMagnitude_of_contains he hd⟩

/-- A quotient in the interval of a positive double is at least half a unit. -/
theorem le_of_contains (hs : 0 < significand)
    (h : (Interval.ofDouble significand scale).contains (4 * a) d) : d ≤ 2 * a := by
  have hle : d ≤ d * 2 ^ scale := Nat.le_mul_of_pos_right d (Nat.two_pow_pos _)
  by_cases hpower : significand = 2 ^ 52 ∧ 0 < scale
  · obtain ⟨rfl, hpos⟩ := hpower
    have hlower := ((Interval.contains_power_iff hpos).1 h).1
    omega
  · have hnearest := (Interval.contains_iff_isNearest hpower).1 h
    have hmul : d * 2 ^ scale ≤ significand * (d * 2 ^ scale) := Nat.le_mul_of_pos_left _ hs
    have hlower := hnearest.lower
    omega

/-- A quotient in the interval of a double is below the power of two after the largest one. -/
theorem lt_of_contains (he : Encoded significand scale) (hd : 0 < d)
    (h : (Interval.ofDouble significand scale).contains (4 * a) d) : a < twoTo 2098 * d := by
  have hsig := he.lt_two_pow
  have hupper : 2 * a ≤ 2 * (significand * (d * 2 ^ scale)) + d * 2 ^ scale := by
    by_cases hpower : significand = 2 ^ 52 ∧ 0 < scale
    · obtain ⟨rfl, hpos⟩ := hpower
      have hbound := ((Interval.contains_power_iff hpos).1 h).2
      omega
    · exact ((Interval.contains_iff_isNearest hpower).1 h).upper
  have hstep : 0 < d * 2 ^ scale := Nat.mul_pos hd (Nat.two_pow_pos _)
  have hmul : significand * (d * 2 ^ scale) ≤ (2 ^ 53 - 1) * (d * 2 ^ scale) :=
    Nat.mul_le_mul_right _ (by omega)
  calc a < 2 ^ 53 * (d * 2 ^ scale) := by omega
    _ = twoTo 53 * (d * twoTo scale) := rfl
    _ ≤ twoTo 53 * (d * twoTo 2045) :=
      Nat.mul_le_mul_left _ (Nat.mul_le_mul_left d (twoTo_le he.scale_le))
    _ = twoTo 2098 * d := by
      rw [show 2098 = 53 + 2045 from rfl, twoTo_add, Nat.mul_comm d, Nat.mul_assoc]

end Double

namespace Shortest

/-- The decimal `n · 10 ^ k` lies in the interval. -/
def Interval.Holds (i : Interval) (n : Nat) (k : Int) : Prop :=
  i.contains (n * (gridStep k).1) (gridStep k).2

theorem Interval.holds_ofNat {i : Interval} {n e : Nat} :
    i.Holds n (.ofNat e) ↔ i.contains (n * (4 * Double.unitsPerOne * tenTo e)) 1 := Iff.rfl

theorem Interval.holds_negSucc {i : Interval} {n e : Nat} :
    i.Holds n (.negSucc e) ↔ i.contains (n * (4 * Double.unitsPerOne)) (tenTo (e + 1)) := Iff.rfl

end Shortest

/-! ## Rounding a decimal -/

def signed (negative : Bool) (n : Nat) : Int := if negative then -(n : Int) else n

theorem natAbs_signed (negative : Bool) (n : Nat) : (signed negative n).natAbs = n := by
  cases negative with
  | false => exact Int.natAbs_natCast n
  | true => exact (Int.natAbs_neg n).trans (Int.natAbs_natCast n)

theorem signed_natAbs (i : Int) : signed (decide (i < 0)) i.natAbs = i := by
  unfold signed
  by_cases hneg : i < 0
  · rw [decide_eq_true hneg, if_pos rfl]
    omega
  · rw [decide_eq_false hneg, if_neg Bool.false_ne_true]
    omega

theorem decide_signed_lt_zero {negative : Bool} {n : Nat} (hn : 0 < n) :
    decide (signed negative n < 0) = negative := by
  cases negative with
  | false => exact decide_eq_false (Int.not_lt.2 (Int.natCast_nonneg n))
  | true => exact decide_eq_true (Int.neg_neg_of_pos (Int.natCast_pos.2 hn))

theorem lt_tenTo_length_repr (n : Nat) : n < tenTo n.repr.length := by
  rw [Nat.repr_eq_ofList_toDigits, String.length_ofList]
  exact (Nat.length_toDigits_le_iff (by decide) Nat.length_toDigits_pos).1 (Nat.le_refl _)

theorem length_repr_pos (n : Nat) : 0 < n.repr.length := by
  rw [Nat.repr_eq_ofList_toDigits, String.length_ofList]
  exact Nat.length_toDigits_pos

/-- A decimal numeral has no leading zero. -/
theorem tenTo_le_of_lt_length_repr {n m : Nat} (hn : 0 < n) (h : m < n.repr.length) :
    tenTo m ≤ n := by
  rw [Nat.repr_eq_ofList_toDigits, String.length_ofList] at h
  rcases Nat.eq_zero_or_pos m with rfl | hm
  · exact hn
  · by_contra hlt
    have hle := (Nat.length_toDigits_le_iff (by decide) hm).2 (Nat.lt_of_not_le hlt)
    omega

namespace Double

open Shortest

variable {negative : Bool} {significand scale n : Nat} {k : Int}

/-- The decimal `n · 10 ^ k` as a quotient of units. -/
def decimalQuotient (n : Nat) : Int → Nat × Nat
  | .ofNat e => (n * tenTo e * unitsPerOne, 1)
  | .negSucc e => (n * unitsPerOne, tenTo (e + 1))

theorem unitsPerOne_pos : 0 < unitsPerOne := twoTo_pos 1074

theorem decimalQuotient_pos (n : Nat) (k : Int) : 0 < (decimalQuotient n k).2 := by
  cases k with
  | ofNat e => exact Nat.one_pos
  | negSucc e => exact tenTo_pos _

theorem decimalQuotient_zero (k : Int) : (decimalQuotient 0 k).1 = 0 := by
  cases k <;> simp [decimalQuotient]

theorem holds_iff_contains {i : Interval} :
    i.Holds n k ↔ i.contains (4 * (decimalQuotient n k).1) (decimalQuotient n k).2 := by
  cases k with
  | ofNat e =>
    have hstep : 4 * (n * tenTo e * unitsPerOne) = n * (4 * unitsPerOne * tenTo e) := by ring
    simp only [decimalQuotient, hstep]
    exact Interval.holds_ofNat
  | negSucc e =>
    have hstep : 4 * (n * unitsPerOne) = n * (4 * unitsPerOne) := by ring
    simp only [decimalQuotient, hstep]
    exact Interval.holds_negSucc

/-- Only the interval of zero holds zero. -/
theorem pos_of_holds (hs : 0 < significand)
    (h : (Interval.ofDouble significand scale).Holds n k) : 0 < n := by
  apply Nat.pos_of_ne_zero
  rintro rfl
  have hle := le_of_contains hs (holds_iff_contains.1 h)
  have hd := decimalQuotient_pos 0 k
  have hzero := decimalQuotient_zero k
  omega

theorem two_mul_unitsPerOne_le : 2 * unitsPerOne ≤ tenTo 331 := by decide +kernel

theorem twoTo_le_mul_unitsPerOne : twoTo 2098 ≤ tenTo 310 * unitsPerOne := by decide +kernel

/-- A decimal that is cut off to zero is less than half a unit. -/
theorem lt_of_cut_low (h : (n.repr.length : Int) + k < -330) :
    2 * (decimalQuotient n k).1 < (decimalQuotient n k).2 := by
  have hlength := length_repr_pos n
  have hlt := lt_tenTo_length_repr n
  have hunits := two_mul_unitsPerOne_le
  cases k with
  | ofNat e =>
    rw [Int.ofNat_eq_natCast] at h
    omega
  | negSucc e =>
    have hexp : n.repr.length + 331 ≤ e + 1 := by
      rw [Int.negSucc_eq] at h
      omega
    calc 2 * (n * unitsPerOne) = n * (2 * unitsPerOne) := by ring
      _ ≤ n * tenTo 331 := Nat.mul_le_mul_left n hunits
      _ < tenTo n.repr.length * tenTo 331 := Nat.mul_lt_mul_of_pos_right hlt (tenTo_pos 331)
      _ = tenTo (n.repr.length + 331) := (tenTo_add ..).symm
      _ ≤ tenTo (e + 1) := tenTo_le hexp

/-- A decimal that is cut off to infinity is beyond all doubles. -/
theorem le_of_cut_high (hn : 0 < n) (h : 310 < (n.repr.length : Int) + k) :
    twoTo 2098 * (decimalQuotient n k).2 ≤ (decimalQuotient n k).1 := by
  have hlength := length_repr_pos n
  have hle : tenTo (n.repr.length - 1) ≤ n := tenTo_le_of_lt_length_repr hn (by omega)
  have hunits := twoTo_le_mul_unitsPerOne
  cases k with
  | ofNat e =>
    have hexp : 310 ≤ n.repr.length - 1 + e := by
      rw [Int.ofNat_eq_natCast] at h
      omega
    calc twoTo 2098 * 1 = twoTo 2098 := Nat.mul_one _
      _ ≤ tenTo 310 * unitsPerOne := hunits
      _ ≤ tenTo (n.repr.length - 1 + e) * unitsPerOne :=
        Nat.mul_le_mul_right _ (tenTo_le hexp)
      _ = tenTo (n.repr.length - 1) * tenTo e * unitsPerOne := by rw [tenTo_add]
      _ ≤ n * tenTo e * unitsPerOne := Nat.mul_le_mul_right _ (Nat.mul_le_mul_right _ hle)
  | negSucc e =>
    have hexp : 310 + (e + 1) ≤ n.repr.length - 1 := by
      rw [Int.negSucc_eq] at h
      omega
    calc twoTo 2098 * tenTo (e + 1) ≤ tenTo 310 * unitsPerOne * tenTo (e + 1) :=
        Nat.mul_le_mul_right _ hunits
      _ = tenTo 310 * tenTo (e + 1) * unitsPerOne := Nat.mul_right_comm ..
      _ = tenTo (310 + (e + 1)) * unitsPerOne := by rw [tenTo_add 310]
      _ ≤ n * unitsPerOne :=
        Nat.mul_le_mul_right _ (Nat.le_trans (tenTo_le hexp) hle)

/-- The double nearest to a decimal in the interval of a double is that double. -/
theorem ofDecimal_of_holds (he : Encoded significand scale)
    (h : (Interval.ofDouble significand scale).Holds n k) :
    ofDecimal negative n k = ofBits (signBits negative + (scale * 2 ^ 52 + significand)) := by
  have hin := holds_iff_contains.1 h
  have hd := decimalQuotient_pos n k
  have hmagnitude := (nearestMagnitude_eq_iff he hd).2 hin
  unfold ofDecimal
  simp only
  split
  · next hcut =>
    -- only zero has an interval that reaches below half a unit
    have hzero : significand = 0 := by
      by_contra hne
      have hle := le_of_contains (Nat.pos_of_ne_zero hne) hin
      have hn := pos_of_holds (Nat.pos_of_ne_zero hne) h
      simp only [Bool.or_eq_true, decide_eq_true_eq] at hcut
      rcases hcut with hzero | hcut
      · omega
      · have hlt := lt_of_cut_low hcut
        omega
    have hscale : scale = 0 := by
      by_contra hne
      have hge := he.two_pow_le (Nat.pos_of_ne_zero hne)
      omega
    rw [hzero, hscale]
    rfl
  · next hcut =>
    have hn : 0 < n := by
      simp only [Bool.or_eq_true, decide_eq_true_eq, not_or] at hcut
      omega
    split
    · next hhigh =>
      have hlt := lt_of_contains he hd hin
      have hle := le_of_cut_high hn hhigh
      omega
    · rw [← hmagnitude]
      cases k <;> rfl

/-- Doubles of one sign are told apart by their magnitudes. -/
theorem magnitude_inj {m m' : Nat} (hm : m ≤ infinityBits) (hm' : m' ≤ infinityBits)
    (h : ofBits (signBits negative + m) = ofBits (signBits negative + m')) : m = m' := by
  have hinf : infinityBits = 2047 * 2 ^ 52 := rfl
  have hsign := signBits_eq negative
  have hbits : signBits negative + m = signBits negative + m' := by
    rw [← toBits_ofBits (by omega : signBits negative + m < 2 ^ 64) (by omega), h]
    exact toBits_ofBits (by omega) (by omega)
  omega

theorem nearestMagnitude_le_infinityBits (a d : Nat) : nearestMagnitude a d ≤ infinityBits :=
  Nat.min_le_right _ _

/-- Only the decimals in its interval have a finite double as the nearest one. -/
theorem holds_of_ofDecimal (he : Encoded significand scale)
    (h : ofDecimal negative n k =
      ofBits (signBits negative + (scale * 2 ^ 52 + significand))) :
    (Interval.ofDouble significand scale).Holds n k := by
  have hinf : infinityBits = 2047 * 2 ^ 52 := rfl
  have hsig := he.lt_two_pow
  have hscale := he.scale_le
  have hd := decimalQuotient_pos n k
  rw [holds_iff_contains]
  unfold ofDecimal at h
  simp only at h
  split at h
  · next hcut =>
    -- what is cut off to zero is in the interval of zero
    have hzero := magnitude_inj (m := 0) (Nat.zero_le _) (by omega) h
    obtain ⟨rfl, rfl⟩ : scale = 0 ∧ significand = 0 := by omega
    have hlt : 2 * (decimalQuotient n k).1 < (decimalQuotient n k).2 := by
      simp only [Bool.or_eq_true, decide_eq_true_eq] at hcut
      rcases hcut with rfl | hcut
      · rw [decimalQuotient_zero]
        exact hd
      · exact lt_of_cut_low hcut
    rw [Interval.contains_iff_isNearest (by omega)]
    exact ⟨by omega, by omega, by omega, by omega⟩
  · split at h
    · have hinfinite := magnitude_inj (Nat.le_refl _) (by omega) h
      omega
    · have hnearest : ofBits (signBits negative +
          nearestMagnitude (decimalQuotient n k).1 (decimalQuotient n k).2) =
          ofBits (signBits negative + (scale * 2 ^ 52 + significand)) := by
        rw [← h]
        cases k <;> rfl
      exact (nearestMagnitude_eq_iff he hd).1
        (magnitude_inj (nearestMagnitude_le_infinityBits _ _) (by omega) hnearest)

/-- The double nearest to an integer in the interval of a double is that double. -/
theorem ofInt_of_holds (he : Encoded significand scale) (hn : 0 < n)
    (h : (Interval.ofDouble significand scale).Holds n 0) :
    ofInt (signed negative n) = ofBits (signBits negative + (scale * 2 ^ 52 + significand)) := by
  have hin := holds_iff_contains.1 h
  have hquotient : decimalQuotient n 0 = (n * unitsPerOne, 1) := by
    show (n * tenTo 0 * unitsPerOne, 1) = _
    rw [show tenTo 0 = 1 from rfl, Nat.mul_one]
  rw [hquotient] at hin
  rw [← (nearestMagnitude_eq_iff he Nat.one_pos).2 hin]
  unfold ofInt nearest
  rw [decide_signed_lt_zero hn, natAbs_signed]

end Double

namespace Shortest

/-! ## Where the search ends -/

open Double

variable {significand scale : Nat}

/-- A double lies in its own interval. -/
theorem contains_value (significand scale : Nat) {d : Nat} (hd : 0 < d) :
    (Interval.ofDouble significand scale).contains (4 * significand * twoTo scale * d) d := by
  have hstep := twoTo_pos scale
  have hlow : (Interval.ofDouble significand scale).low ≤ 4 * significand * twoTo scale :=
    Nat.sub_le _ _
  have hhigh : 4 * significand * twoTo scale < (Interval.ofDouble significand scale).high := by
    show _ < _ + 2 * twoTo scale
    omega
  unfold Interval.contains
  split
  · simp only [Bool.and_eq_true, decide_eq_true_eq]
    exact ⟨Nat.mul_le_mul_right d hlow, Nat.mul_le_mul_right d (Nat.le_of_lt hhigh)⟩
  · next hodd =>
    have hlt : (Interval.ofDouble significand scale).low < 4 * significand * twoTo scale := by
      have hsig : 0 < significand := by
        apply Nat.pos_of_ne_zero
        rintro rfl
        exact hodd rfl
      have hvalue : 0 < 4 * significand * twoTo scale := by positivity
      simp only [Interval.ofDouble]
      split <;> omega
    simp only [Bool.and_eq_true, decide_eq_true_eq]
    exact ⟨Nat.mul_lt_mul_of_pos_right hlt hd, Nat.mul_lt_mul_of_pos_right hhigh hd⟩

theorem holds_of_hit {i : Interval} {k : Int} {n : Nat} (h : hit? i k = some n) : i.Holds n k := by
  unfold hit? at h
  simp only at h
  unfold Interval.Holds
  split at h
  · next hbelow habove =>
    split at h
    · exact Option.some.inj h ▸ hbelow
    · exact Option.some.inj h ▸ habove
  · next hbelow _ => exact Option.some.inj h ▸ hbelow
  · next _ habove => exact Option.some.inj h ▸ habove
  · cases h

theorem twoTo_dvd_tenTo (n : Nat) : twoTo n ∣ tenTo n :=
  pow_dvd_pow_of_dvd (show 2 ∣ 10 by decide) n

/-- The last grid holds every double. -/
theorem holds_last (significand scale : Nat) :
    (Interval.ofDouble significand scale).Holds
      ((Interval.ofDouble significand scale).value * tenTo 1074 / (4 * unitsPerOne))
      (.negSucc 1073) := by
  have hdvd : 4 * unitsPerOne ∣ 4 * significand * twoTo scale * tenTo 1074 := by
    have hten : unitsPerOne ∣ tenTo 1074 := twoTo_dvd_tenTo 1074
    rw [Nat.mul_assoc 4, Nat.mul_assoc 4]
    exact Nat.mul_dvd_mul_left 4 (Dvd.dvd.mul_left hten _)
  have hvalue : (Interval.ofDouble significand scale).value = 4 * significand * twoTo scale := rfl
  rw [Interval.holds_negSucc, hvalue, Nat.div_mul_cancel hdvd]
  exact contains_value significand scale (tenTo_pos 1074)

/-- From any grid on, the search ends in the interval. -/
theorem holds_search (significand scale j : Nat) :
    (Interval.ofDouble significand scale).Holds
      (search (Interval.ofDouble significand scale) j).1
      (search (Interval.ofDouble significand scale) j).2 := by
  induction j with
  | zero => exact holds_last significand scale
  | succ j ih =>
    unfold search
    split
    · next hhit => exact holds_of_hit hhit
    · exact ih

/-- The shortest decimal of a double lies in its interval. -/
theorem holds_decimal (significand scale : Nat) :
    (Interval.ofDouble significand scale).Holds (decimal significand scale).1
      (decimal significand scale).2 :=
  holds_search significand scale _

/-! ## No coarser grid reaches into the interval -/

/-- The interval is convex. -/
theorem Interval.contains_of_between {i : Interval} {p q r d : Nat} (hp : i.contains p d)
    (hr : i.contains r d) (hpq : p ≤ q) (hqr : q ≤ r) : i.contains q d := by
  unfold contains at *
  split at hp <;> simp_all <;> omega

theorem gridStep_pos (k : Int) : 0 < (gridStep k).1 ∧ 0 < (gridStep k).2 := by
  have hunits := unitsPerOne_pos
  cases k with
  | ofNat e =>
    exact ⟨Nat.mul_pos (Nat.mul_pos (by decide) hunits) (tenTo_pos e), Nat.one_pos⟩
  | negSucc e => exact ⟨Nat.mul_pos (by decide) hunits, tenTo_pos (e + 1)⟩

theorem not_contains_of_hit_eq_none {i : Interval} {k : Int} (h : hit? i k = none) :
    ¬ i.contains (i.value * (gridStep k).2 / (gridStep k).1 * (gridStep k).1) (gridStep k).2 ∧
      ¬ i.contains ((i.value * (gridStep k).2 / (gridStep k).1 + 1) * (gridStep k).1)
        (gridStep k).2 := by
  unfold hit? at h
  simp only at h
  split at h
  · split at h <;> cases h
  · cases h
  · cases h
  · next hbelow habove => exact ⟨by simp [hbelow], by simp [habove]⟩

/-- A grid without a hit has no point in the interval: the two around the double are the nearest. -/
theorem not_holds_of_hit_eq_none {k : Int} {m : Nat}
    (h : hit? (Interval.ofDouble significand scale) k = none) :
    ¬ (Interval.ofDouble significand scale).Holds m k := by
  intro hholds
  obtain ⟨hstep, hd⟩ := gridStep_pos k
  obtain ⟨hbelow, habove⟩ := not_contains_of_hit_eq_none h
  have hvalue : (Interval.ofDouble significand scale).contains
      ((Interval.ofDouble significand scale).value * (gridStep k).2) (gridStep k).2 :=
    contains_value significand scale hd
  unfold Interval.Holds at hholds
  generalize (gridStep k).1 = step at *
  generalize (gridStep k).2 = d at *
  generalize Interval.ofDouble significand scale = i at *
  have hle : i.value * d / step * step ≤ i.value * d := Nat.div_mul_le_self _ _
  have hlt : i.value * d ≤ (i.value * d / step + 1) * step := by
    rw [Nat.add_mul, Nat.one_mul]
    exact Nat.le_of_lt (Nat.lt_div_mul_add hstep)
  rcases Nat.lt_or_ge (i.value * d / step) m with hm | hm
  · exact habove (Interval.contains_of_between hvalue hholds hlt (Nat.mul_le_mul_right step hm))
  · exact hbelow (Interval.contains_of_between hholds hvalue (Nat.mul_le_mul_right step hm) hle)

/-- From a grid on that is at least as coarse, the search ends no later than at a grid with a point
in the interval. -/
theorem le_search {m j : Nat} {k : Int} (hk : k ≤ j - 1074)
    (h : (Interval.ofDouble significand scale).Holds m k) :
    k ≤ (search (Interval.ofDouble significand scale) j).2 := by
  induction j with
  | zero => exact hk
  | succ j ih =>
    unfold search
    split
    · next hhit => exact hk
    · next hnone =>
      apply ih
      have hne : k ≠ (j + 1 - 1074 : Int) := by
        rintro rfl
        exact not_holds_of_hit_eq_none hnone h
      push_cast at hk
      omega

/-- A decimal in the interval of a positive double lies on no coarser grid than the shortest one. -/
theorem le_decimal (he : Encoded significand scale) (hs : 0 < significand) {m : Nat} {k : Int}
    (h : (Interval.ofDouble significand scale).Holds m k) : k ≤ (decimal significand scale).2 := by
  apply le_search _ h
  -- a coarser grid than the first one has no point but zero among the doubles
  by_contra hgt
  have hm := pos_of_holds hs h
  have hlength := length_repr_pos m
  have hle := le_of_cut_high hm (k := k) (by push_cast at hgt; omega)
  have hlt := lt_of_contains he (decimalQuotient_pos m k) (holds_iff_contains.1 h)
  omega

/-- No decimal on a coarser grid than the shortest one is read as the double. -/
theorem ofDecimal_ne_of_lt (he : Encoded significand scale) (hs : 0 < significand)
    {negative : Bool} {m : Nat} {k : Int} (hk : (decimal significand scale).2 < k) :
    ofDecimal negative m k ≠ ofBits (signBits negative + (scale * 2 ^ 52 + significand)) := by
  intro h
  have hle := le_decimal he hs (holds_of_ofDecimal he h)
  omega

end Shortest

end ScriptValues
