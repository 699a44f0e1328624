import PocketCalc.Number.Rounding
import PocketCalc.Proofs.Number.Readback

/-!
# Rounded numbers

The double nearest to a fraction is finite if the fraction is not too large, and is not
zero if the fraction is at least one unit.  So a finite number is rounded to a finite one,
and never to the negative zero.
-/

namespace PocketCalc
namespace Double

theorem hiddenBit_pos : 0 < hiddenBit := by decide

theorem roundHalfEven_le (num den : Nat) : roundHalfEven num den ≤ num / den + 1 := by
  simp only [roundHalfEven]
  split <;> omega

theorem div_le_roundHalfEven (num den : Nat) : num / den ≤ roundHalfEven num den := by
  simp only [roundHalfEven]
  split <;> omega

/-- A fraction below `2 ^ 2097` units has a finite nearest double. -/
theorem nearest_lt_infinity {num den k : Nat} (h : num / den < Nat.pow 2 k) (hk : k ≤ 2097) :
    nearest num den < infinity := by
  have hlog : (num / den).log2 < max k 1 := by
    by_cases h0 : num / den = 0
    · rw [h0]
      exact Nat.lt_of_lt_of_le Nat.zero_lt_one (Nat.le_max_right _ _)
    · exact Nat.lt_of_lt_of_le ((Nat.log2_lt h0).2 h) (Nat.le_max_left _ _)
  have hquotient : num / den / 2 ^ ((num / den).log2 - 52) < 2 * hiddenBit := by
    refine (Nat.div_lt_iff_lt_mul (Nat.two_pow_pos _)).2 ?_
    have hself : num / den < 2 ^ ((num / den).log2 + 1) := Nat.lt_log2_self
    refine Nat.lt_of_lt_of_le hself ?_
    rw [show 2 * hiddenBit = 2 ^ 53 from rfl, ← Nat.pow_add]
    exact Nat.pow_le_pow_right (by decide) (by omega)
  have hround := roundHalfEven_le num (den * 2 ^ ((num / den).log2 - 52))
  rw [← Nat.div_div_eq_div_mul] at hround
  have hsteps : ((num / den).log2 - 52) * hiddenBit ≤ 2044 * hiddenBit :=
    Nat.mul_le_mul_right _ (by omega)
  have hpos := hiddenBit_pos
  simp only [nearest, Nat.pow_eq]
  unfold infinity
  omega

theorem nearest_pos {num den : Nat} (hden : 0 < den) (h : den ≤ num) : 0 < nearest num den := by
  have hone : 1 ≤ num / den := (Nat.le_div_iff_mul_le hden).2 (by omega)
  have hround := div_le_roundHalfEven num den
  have hinfinity : 0 < infinity := by decide
  simp only [nearest, Nat.pow_eq]
  by_cases hs : (num / den).log2 - 52 = 0
  · rw [hs, Nat.pow_zero, Nat.mul_one]
    omega
  · have := Nat.mul_le_mul_right hiddenBit (Nat.pos_of_ne_zero hs)
    have := hiddenBit_pos
    omega

theorem two_pow_le_one {k : Nat} (h : k ≤ 1074) : Nat.pow 2 k ≤ one :=
  Nat.pow_le_pow_right (by decide) (by unfold places; exact h)

theorem one_pos : 0 < one := Nat.two_pow_pos _

end Double

namespace Number

open Double

/-- A scaled number below `2 ^ 53` is rounded to a whole number up to `2 ^ 53`. -/
theorem roundHalfUp_one_le {scaled : Nat} (h : scaled < 2 * hiddenBit * one) :
    roundHalfUp scaled one ≤ 2 * hiddenBit := by
  have hone := one_pos
  refine Nat.lt_succ_iff.1 ((Nat.div_lt_iff_lt_mul (by omega)).2 ?_)
  rw [Nat.succ_mul (2 * hiddenBit) (2 * one), Nat.mul_left_comm (2 * hiddenBit) 2 one]
  omega

theorem scale_pos (places : Nat) : 0 < Nat.pow 10 (min places maxPlaces) := Nat.pow_pos (by decide)

theorem scale_le_one (places : Nat) : Nat.pow 10 (min places maxPlaces) ≤ one :=
  calc 10 ^ min places maxPlaces ≤ 10 ^ 15 :=
        Nat.pow_le_pow_right (by decide) (Nat.min_le_right _ _)
    _ ≤ 2 ^ 50 := by decide
    _ ≤ one := two_pow_le_one (by decide)

theorem nearest_whole_lt_infinity {whole : Nat} (h : whole ≤ 2 * hiddenBit) (scale : Nat) :
    nearest (whole * one) scale < infinity := by
  have hwhole : whole < 2 ^ 54 := Nat.lt_of_le_of_lt h (by decide)
  have hbound : whole * one < 2 ^ (54 + places) := by
    rw [Nat.pow_add]
    exact Nat.mul_lt_mul_of_pos_right hwhole one_pos
  exact nearest_lt_infinity (Nat.lt_of_le_of_lt (Nat.div_le_self _ _) hbound)
    (by unfold places; decide)

theorem nearest_whole_pos {whole scale : Nat} (hwhole : 0 < whole) (hscale : 0 < scale)
    (hle : scale ≤ one) : 0 < nearest (whole * one) scale :=
  nearest_pos hscale (Nat.le_trans hle (Nat.le_mul_of_pos_left one hwhole))

/-- Rounding a finite number gives one that is read back from its text. -/
theorem writable_round {x : Float} (hx : x.isFinite) (places : Nat) :
    Writable (round x places) := by
  unfold round
  simp only
  split
  · next hscaled =>
    split
    · exact ⟨by decide +kernel, fun _ => by decide +kernel⟩
    · next hwhole =>
      have hlt := nearest_whole_lt_infinity (roundHalfUp_one_le hscaled)
        (Nat.pow 10 (min places maxPlaces))
      have hpos := nearest_whole_pos (Nat.pos_of_ne_zero hwhole) (scale_pos places)
        (scale_le_one places)
      refine ⟨by rwa [pattern_ofPattern _ hlt], fun hzero => ?_⟩
      rw [pattern_ofPattern _ hlt] at hzero
      exact absurd hzero (Nat.ne_of_gt hpos)
  · next hscaled =>
    refine ⟨(isFinite_iff x).1 hx, fun hzero => absurd ?_ hscaled⟩
    have hunits : units 0 = 0 := by decide
    rw [hzero, hunits, Nat.zero_mul, nearest_of_lt (by decide), hunits]
    exact Nat.mul_pos (by decide) one_pos

end Number
end PocketCalc
