/-
  Proofs/Decimal/Finite.lean --- numerals stand for finite numbers.

  Rounding a ratio gives infinity only when the ratio is beyond `2 ^ 1000` or so, and a numeral is
  scaled by dividing a significand below `2 ^ 64` by powers of ten, or by multiplying with a check
  of the outcome.  So the magnitudes stay far below infinity, and the double that a numeral stands
  for is finite.  All bounds are in units of `fractionCount`, the magnitudes of one exponent.
-/
import Mathlib.Tactic.Ring
import SwaggerRoutes.Json.Numeral

set_option autoImplicit false

namespace SwaggerRoutes.Decimal

/-! ## Rounding -/

theorem fractionCount_eq : fractionCount = 2 ^ 52 := rfl

theorem roundHalfEven_le (num den : Nat) : roundHalfEven num den ≤ num / den + 1 := by
  unfold roundHalfEven
  dsimp only
  split <;> omega

theorem le_roundHalfEven (num den : Nat) : num / den ≤ roundHalfEven num den := by
  unfold roundHalfEven
  dsimp only
  split <;> omega

/-- A ratio shifted by no less than its order leaves a quotient of at most fifty-four bits. -/
theorem shiftRatio_div_lt {num den : Nat} (hden : den ≠ 0) {e : Int}
    (he : (num.log2 : Int) - den.log2 - 53 ≤ e) :
    (shiftRatio num den e).1 / (shiftRatio num den e).2 < 2 ^ 54 := by
  have hnum : num < 2 ^ (num.log2 + 1) := Nat.lt_log2_self
  have hlow : 2 ^ den.log2 ≤ den := Nat.log2_self_le hden
  have hpos : 0 < den := Nat.pos_of_ne_zero hden
  unfold shiftRatio
  split
  · next hneg =>
    obtain ⟨k, rfl⟩ : ∃ k : Nat, e = -(k : Int) := ⟨(-e).toNat, by omega⟩
    simp only [Int.neg_neg, Int.toNat_natCast]
    refine (Nat.div_lt_iff_lt_mul hpos).mpr ?_
    calc num * Nat.pow 2 k < 2 ^ (num.log2 + 1) * 2 ^ k :=
          Nat.mul_lt_mul_of_pos_right hnum (Nat.two_pow_pos k)
      _ = 2 ^ (num.log2 + 1 + k) := (Nat.pow_add ..).symm
      _ ≤ 2 ^ (54 + den.log2) := Nat.pow_le_pow_right (by decide) (by omega)
      _ = 2 ^ 54 * 2 ^ den.log2 := Nat.pow_add ..
      _ ≤ 2 ^ 54 * den := Nat.mul_le_mul_left _ hlow
  · next hneg =>
    obtain ⟨k, rfl⟩ : ∃ k : Nat, e = (k : Int) := ⟨e.toNat, by omega⟩
    simp only [Int.toNat_natCast]
    refine (Nat.div_lt_iff_lt_mul (Nat.mul_pos hpos (Nat.two_pow_pos k))).mpr ?_
    calc num < 2 ^ (num.log2 + 1) := hnum
      _ ≤ 2 ^ (54 + den.log2 + k) := Nat.pow_le_pow_right (by decide) (by omega)
      _ = 2 ^ 54 * (2 ^ den.log2 * 2 ^ k) := by rw [Nat.pow_add, Nat.pow_add, Nat.mul_assoc]
      _ ≤ 2 ^ 54 * (den * Nat.pow 2 k) :=
          Nat.mul_le_mul_left _ (Nat.mul_le_mul_right _ hlow)

/-- The magnitude of a ratio of at most `2 ^ k`. -/
theorem roundRatio_lt {num den k : Nat} (h : num ≤ 2 ^ k * den) :
    roundRatio num den < (k + 1027) * fractionCount := by
  unfold roundRatio
  split
  · rw [fractionCount_eq]; omega
  · next hzero =>
    obtain ⟨hnum, hden⟩ := not_or.mp hzero
    have hlog : num.log2 ≤ den.log2 + k := by
      refine Nat.lt_succ_iff.mp ((Nat.log2_lt hnum).mpr ?_)
      calc num ≤ 2 ^ k * den := h
        _ < 2 ^ k * 2 ^ (den.log2 + 1) :=
            Nat.mul_lt_mul_of_pos_left Nat.lt_log2_self (Nat.two_pow_pos k)
        _ = 2 ^ (den.log2 + k + 1) := by rw [← Nat.pow_add]; congr 1; omega
    dsimp only
    -- Whether the guess is lowered by one does not matter for the bound.
    generalize hguess : (num.log2 : Int) - den.log2 - 52 = guess
    generalize hfits : (if (shiftRatio num den guess).1 / (shiftRatio num den guess).2 <
      fractionCount then guess - 1 else guess) = fits
    have hle : fits ≤ guess := by split at hfits <;> omega
    have hge : guess - 1 ≤ fits := by split at hfits <;> omega
    have hshift : (num.log2 : Int) - den.log2 - 53 ≤ max fits (-1074) := by omega
    have hdiv := shiftRatio_div_lt hden hshift
    have hround := roundHalfEven_le (shiftRatio num den (max fits (-1074))).1
      (shiftRatio num den (max fits (-1074))).2
    have hexp : (max fits (-1074) + 1074).toNat ≤ k + 1022 := by omega
    have hmul := Nat.mul_le_mul_right fractionCount hexp
    refine Nat.lt_of_le_of_lt (Nat.min_le_right _ _) ?_
    rw [fractionCount_eq] at hmul ⊢
    omega

theorem lt_infinityMagnitude {b k : Nat} (h : b < k * fractionCount) (hk : k ≤ 2047) :
    b < infinityMagnitude :=
  Nat.lt_of_lt_of_le h (Nat.mul_le_mul_right fractionCount hk)

/-- A whole number other than zero has at least the magnitude of one. -/
theorem le_roundRatio_one {num : Nat} (h : num ≠ 0) :
    1023 * fractionCount ≤ roundRatio num 1 := by
  have hlog : (1 : Nat).log2 = 0 := rfl
  have hlow : 2 ^ num.log2 ≤ num := Nat.log2_self_le h
  -- The guess is right: the quotient has fifty-three bits.
  have hquot : fractionCount ≤ (shiftRatio num 1 ((num.log2 : Int) - 52)).1 /
      (shiftRatio num 1 ((num.log2 : Int) - 52)).2 := by
    unfold shiftRatio
    split
    · next hneg =>
      rw [Nat.div_one, fractionCount_eq]
      calc 2 ^ 52 = 2 ^ num.log2 * 2 ^ (-((num.log2 : Int) - 52)).toNat := by
            rw [← Nat.pow_add]; congr 1; omega
        _ ≤ num * Nat.pow 2 (-((num.log2 : Int) - 52)).toNat := Nat.mul_le_mul_right _ hlow
    · next hneg =>
      rw [Nat.one_mul, fractionCount_eq]
      refine (Nat.le_div_iff_mul_le (Nat.two_pow_pos _)).mpr ?_
      calc 2 ^ 52 * Nat.pow 2 ((num.log2 : Int) - 52).toNat
          = 2 ^ (52 + ((num.log2 : Int) - 52).toNat) := (Nat.pow_add ..).symm
        _ = 2 ^ num.log2 := by congr 1; omega
        _ ≤ num := hlow
  have hround := le_roundHalfEven (shiftRatio num 1 ((num.log2 : Int) - 52)).1
    (shiftRatio num 1 ((num.log2 : Int) - 52)).2
  unfold roundRatio
  rw [if_neg (by simp [h]), hlog]
  dsimp only
  rw [Int.natCast_zero, Int.sub_zero, if_neg (Nat.not_lt.mpr hquot),
    Int.max_eq_left (by omega : (-1074 : Int) ≤ (num.log2 : Int) - 52)]
  refine Nat.le_min.mpr ⟨Nat.mul_le_mul_right _ (by decide), ?_⟩
  have hmul := Nat.mul_le_mul_right fractionCount
    (by omega : 1022 ≤ ((num.log2 : Int) - 52 + 1074).toNat)
  omega

/-! ## Quotients of magnitudes -/

/-- A magnitude below that of `2 ^ k` stands for a ratio of at most `2 ^ k`. -/
theorem magnitudeRatio_le {b k : Nat} (hk : 53 ≤ k) (h : b < (k + 1022) * fractionCount) :
    (magnitudeRatio b).1 ≤ 2 ^ k * (magnitudeRatio b).2 := by
  have hexp : b / fractionCount < k + 1022 := (Nat.div_lt_iff_lt_mul (by decide)).mpr h
  have hfraction : b % fractionCount < 2 ^ 52 := Nat.mod_lt b (by decide)
  obtain ⟨hm, hq⟩ : (magnitudeParts b).1 ≤ 2 ^ 53 ∧ (magnitudeParts b).2 ≤ (k : Int) - 53 := by
    unfold magnitudeParts
    dsimp only
    rw [fractionCount_eq] at *
    split
    · exact ⟨by dsimp only; omega, by dsimp only; omega⟩
    · exact ⟨by dsimp only; omega, by dsimp only; omega⟩
  unfold magnitudeRatio
  generalize magnitudeParts b = parts at hm hq
  obtain ⟨m, q⟩ := parts
  dsimp only at hm hq ⊢
  split
  · calc m ≤ 2 ^ 53 := hm
      _ ≤ 2 ^ k := Nat.pow_le_pow_right (by decide) hk
      _ ≤ 2 ^ k * Nat.pow 2 (-q).toNat := Nat.le_mul_of_pos_right _ (Nat.two_pow_pos _)
  · calc m * Nat.pow 2 q.toNat ≤ 2 ^ 53 * 2 ^ q.toNat := Nat.mul_le_mul_right _ hm
      _ = 2 ^ (53 + q.toNat) := (Nat.pow_add ..).symm
      _ ≤ 2 ^ k := Nat.pow_le_pow_right (by decide) (by omega)
      _ = 2 ^ k * 1 := (Nat.mul_one _).symm

/-- A magnitude that is at least that of one stands for a ratio of at least one. -/
theorem le_magnitudeRatio {b : Nat} (h : 1023 * fractionCount ≤ b) :
    (magnitudeRatio b).2 ≤ (magnitudeRatio b).1 := by
  have hexp : 1023 ≤ b / fractionCount := (Nat.le_div_iff_mul_le (by decide)).mpr h
  unfold magnitudeRatio magnitudeParts
  dsimp only
  rw [if_neg (by omega : ¬ b / fractionCount = 0)]
  dsimp only
  split
  · calc Nat.pow 2 (-(((b / fractionCount : Nat) : Int) - 1075)).toNat
        ≤ 2 ^ 52 := Nat.pow_le_pow_right (by decide) (by omega)
      _ ≤ b % fractionCount + fractionCount := Nat.le_add_left _ _
  · exact Nat.mul_pos (Nat.add_pos_right _ (by decide)) (Nat.two_pow_pos _)

/-- Dividing by a number that is not below one keeps a bound. -/
theorem overMagnitude_lt {a b k : Nat} (hk : 53 ≤ k) (ha : a < (k + 1022) * fractionCount)
    (hb : 1023 * fractionCount ≤ b) : overMagnitude a b < (k + 1027) * fractionCount := by
  have hratio := magnitudeRatio_le hk ha
  have hone := le_magnitudeRatio hb
  unfold overMagnitude
  refine roundRatio_lt ?_
  calc (magnitudeRatio a).1 * (magnitudeRatio b).2
      ≤ 2 ^ k * (magnitudeRatio a).2 * (magnitudeRatio b).1 := Nat.mul_le_mul hratio hone
    _ = 2 ^ k * ((magnitudeRatio a).2 * (magnitudeRatio b).1) := Nat.mul_assoc ..

/-! ## Doubles -/

theorem isFinite_ofMagnitude {b : Nat} (negative : Bool) (h : b < infinityMagnitude) :
    (Double.ofMagnitude negative b).isFinite = true := by
  have hbound : infinityMagnitude < 2 ^ 63 := by decide
  have hmagnitude : (Double.ofMagnitude negative b).magnitude = b := by
    unfold Double.magnitude Double.ofMagnitude signBit
    rw [UInt64.toNat_ofNat']
    cases negative with
    | true => rw [if_pos rfl]; omega
    | false => rw [if_neg (by decide)]; omega
  rw [Double.isFinite, hmagnitude]
  exact decide_eq_true h

end SwaggerRoutes.Decimal

namespace SwaggerRoutes.Json.Numeral

open Decimal Text

/-! ## Numerals -/

theorem gather_lt {significand : Nat} (h : significand < 2 ^ 64) (ds : List Char) :
    (gather significand ds).1 < 2 ^ 64 := by
  induction ds generalizing significand with
  | nil => exact h
  | cons d ds ih =>
      unfold gather
      dsimp only
      split
      · next hnext => exact ih hnext
      · exact h

theorem le_powerOfTen (k : Nat) : 1023 * fractionCount ≤ powerOfTen k :=
  le_roundRatio_one (Nat.pos_iff_ne_zero.mp (Nat.pow_pos (by decide)))

/-- Scaling ends with a finite magnitude, if it ends with one at all. -/
theorem scale_lt {significand m : Nat} {e : Int} (hs : significand < 2 ^ 64)
    (h : scale significand e = some m) : m < infinityMagnitude := by
  have hwhole : roundRatio significand 1 < (69 + 1022) * fractionCount :=
    roundRatio_lt (k := 64) (by omega)
  have honce (k : Nat) : overMagnitude (roundRatio significand 1) (powerOfTen k) <
      (74 + 1022) * fractionCount := overMagnitude_lt (by decide) hwhole (le_powerOfTen k)
  unfold scale at h
  dsimp only at h
  split at h
  · split at h
    · obtain rfl := Option.some.inj h; decide
    · exact absurd h (by simp)
  · split at h
    · split at h
      · next hfinite => exact Option.some.inj h ▸ hfinite
      · exact absurd h (by simp)
    · split at h
      · exact Option.some.inj h ▸ lt_infinityMagnitude (honce _) (by decide)
      · split at h
        · exact Option.some.inj h ▸ lt_infinityMagnitude
            (overMagnitude_lt (by decide) (honce 308) (le_powerOfTen _)) (by decide)
        · obtain rfl := Option.some.inj h; decide

/-- The double that a numeral stands for is finite. -/
theorem isFinite_of_value {n : Numeral} {d : Double} (h : n.value? = some (.double d)) :
    d.isFinite = true := by
  have hwhole : (gather 0 n.whole).1 < 2 ^ 64 := gather_lt (by decide) n.whole
  unfold value? at h
  generalize hgather : gather 0 n.whole = found at h hwhole
  obtain ⟨whole, dropped⟩ := found
  dsimp only at h hwhole
  split at h
  · split at h
    · exact absurd h (by simp)
    · split at h
      · exact absurd h (by simp)
      · obtain rfl : _ = d := Number.double.inj (Option.some.inj h)
        exact isFinite_ofMagnitude true
          (lt_infinityMagnitude (roundRatio_lt (k := 64) (by omega)) (by decide))
  · obtain ⟨m, hm, hd⟩ := Option.map_eq_some_iff.mp h
    obtain rfl : _ = d := Number.double.inj hd
    exact isFinite_ofMagnitude n.negative (scale_lt (gather_lt hwhole _) hm)

end SwaggerRoutes.Json.Numeral
