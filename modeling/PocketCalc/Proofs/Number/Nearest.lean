import Mathlib.Data.Nat.Dist
import PocketCalc.Proofs.Number.Rounded

/-!
# How near the nearest double is

To find the nearest double of a fraction, `nearest` chooses the power of two to count in, the
`exponent`, and counts to the nearest whole number of these, the `significand`.  The two choices are
described apart, by `exponent_eq` and `IsNearest`.  From them follow what the nearest double is
worth (`units_nearest`), that it is not far off (`dist_units_nearest`) and keeps the order of the
fractions (`nearest_mono`), and that a fraction no further from it than one it is the nearest double
of has the same nearest double (`nearest_eq_of_dist_le`).
-/

namespace PocketCalc
namespace Double

/-! ## The nearest whole number -/

/-- `m` is a whole number nearest to `num / den`, and the even one if there are two. -/
structure IsNearest (num den m : Nat) : Prop where
  le : 2 * num ≤ 2 * (m * den) + den
  ge : 2 * (m * den) ≤ 2 * num + den
  even : 2 * num = 2 * (m * den) + den ∨ 2 * (m * den) = 2 * num + den → m % 2 = 0

/-- The nearest whole number of a greater fraction is not smaller. -/
theorem IsNearest.mono {num num' den m m' : Nat} (hden : 0 < den) (h : IsNearest num den m)
    (h' : IsNearest num' den m') (hle : num ≤ num') : m ≤ m' := by
  refine Nat.not_lt.1 fun hlt => ?_
  have hstep : (m' + 1) * den ≤ m * den := Nat.mul_le_mul_right den hlt
  have hge := h.ge
  have hle' := h'.le
  -- Two whole numbers in the wrong order are neighbours, and both fractions lie half way.
  have hnext : (m' + 1) * den = m * den := by
    rw [Nat.succ_mul] at hstep ⊢
    omega
  have hm : m' + 1 = m := Nat.eq_of_mul_eq_mul_right hden hnext
  rw [Nat.succ_mul] at hnext
  have heven := h.even (by omega)
  have heven' := h'.even (by omega)
  omega

theorem IsNearest.unique {num den m m' : Nat} (hden : 0 < den) (h : IsNearest num den m)
    (h' : IsNearest num den m') : m = m' :=
  Nat.le_antisymm (h.mono hden h' (Nat.le_refl _)) (h'.mono hden h (Nat.le_refl _))

theorem isNearest_mul (m : Nat) {den : Nat} (hden : 0 < den) : IsNearest (m * den) den m :=
  ⟨Nat.le_add_right _ _, Nat.le_add_right _ _, fun htie => by omega⟩

theorem IsNearest.dist_le {num den m : Nat} (h : IsNearest num den m) (k : Nat) :
    Nat.dist num (m * den) ≤ Nat.dist num (k * den) := by
  obtain ⟨hle, hge, -⟩ := h
  unfold Nat.dist
  rcases Nat.lt_trichotomy k m with hlt | rfl | hgt
  · have hstep := Nat.mul_le_mul_right den (Nat.succ_le_of_lt hlt)
    rw [Nat.succ_mul k] at hstep
    omega
  · exact Nat.le_refl _
  · have hstep := Nat.mul_le_mul_right den (Nat.succ_le_of_lt hgt)
    rw [Nat.succ_mul m] at hstep
    omega

theorem isNearest_roundHalfEven (num : Nat) {den : Nat} (hden : 0 < den) :
    IsNearest num den (roundHalfEven num den) := by
  have hsum := Nat.div_add_mod num den
  have hrest := Nat.mod_lt num hden
  rw [Nat.mul_comm] at hsum
  simp only [roundHalfEven]
  split
  · constructor <;> omega
  · have hnext : (num / den + 1) * den = num / den * den + den := Nat.succ_mul _ _
    constructor <;> omega

theorem roundHalfEven_eq_iff {num den m : Nat} (hden : 0 < den) :
    roundHalfEven num den = m ↔ IsNearest num den m :=
  ⟨fun h => h ▸ isNearest_roundHalfEven num hden, (isNearest_roundHalfEven num hden).unique hden⟩

/-! ## The power of two to count in -/

/-- `nearest` counts in units of `2 ^ exponent num den`. -/
def exponent (num den : Nat) : Nat := (num / den).log2 - 52

/-- What `nearest` counts to. -/
def significand (num den : Nat) : Nat := roundHalfEven num (den * 2 ^ exponent num den)

theorem nearest_eq (num den : Nat) :
    nearest num den = min infinity (exponent num den * hiddenBit + significand num den) := rfl

section Exponent

variable {num den : Nat} (hden : 0 < den)
include hden

theorem lt_exponent_succ (num : Nat) : num < 2 * hiddenBit * (den * 2 ^ exponent num den) := by
  have hlog : num / den < 2 ^ (53 + exponent num den) := by
    refine Nat.lt_of_lt_of_le Nat.lt_log2_self (Nat.pow_le_pow_right (by decide) ?_)
    unfold exponent
    omega
  rw [Nat.div_lt_iff_lt_mul hden, Nat.pow_add, Nat.mul_right_comm, Nat.mul_assoc] at hlog
  exact hlog

theorem exponent_le_self (h : 0 < exponent num den) :
    hiddenBit * (den * 2 ^ exponent num den) ≤ num := by
  have hlog : (num / den).log2 = 52 + exponent num den := by
    unfold exponent at h ⊢
    omega
  have hne : num / den ≠ 0 := by
    intro hzero
    rw [hzero, Nat.log2_zero] at hlog
    omega
  have hpow := Nat.log2_self_le hne
  rw [hlog, Nat.le_div_iff_mul_le hden, Nat.pow_add, Nat.mul_right_comm, Nat.mul_assoc] at hpow
  exact hpow

theorem exponent_le {s : Nat} (h : num < 2 * hiddenBit * (den * 2 ^ s)) : exponent num den ≤ s := by
  by_cases hzero : num / den = 0
  · unfold exponent
    rw [hzero, Nat.log2_zero]
    omega
  · have hquotient : num / den < 2 ^ (53 + s) := by
      rw [Nat.div_lt_iff_lt_mul hden, Nat.pow_add, Nat.mul_right_comm, Nat.mul_assoc]
      exact h
    have hlog := (Nat.log2_lt hzero).2 hquotient
    unfold exponent
    omega

theorem exponent_eq {s : Nat} (hlo : hiddenBit * (den * 2 ^ s) ≤ num)
    (hhi : num < 2 * hiddenBit * (den * 2 ^ s)) : exponent num den = s := by
  refine Nat.le_antisymm (exponent_le hden hhi) (Nat.not_lt.1 fun hlt => ?_)
  have htwice : den * 2 ^ exponent num den * 2 ≤ den * 2 ^ s := by
    rw [Nat.mul_assoc, ← Nat.pow_succ]
    exact Nat.mul_le_mul_left den (Nat.pow_le_pow_right (by decide) hlt)
  have hself := lt_exponent_succ hden num
  have := Nat.mul_le_mul_left hiddenBit htwice
  unfold hiddenBit at *
  omega

theorem unit_pos (num : Nat) : 0 < den * 2 ^ exponent num den :=
  Nat.mul_pos hden (Nat.two_pow_pos _)

theorem isNearest_significand (num : Nat) :
    IsNearest num (den * 2 ^ exponent num den) (significand num den) :=
  isNearest_roundHalfEven num (unit_pos hden num)

theorem significand_le (num : Nat) : significand num den ≤ 2 * hiddenBit :=
  (isNearest_significand hden num).mono (unit_pos hden num) (isNearest_mul _ (unit_pos hden num))
    (Nat.le_of_lt (lt_exponent_succ hden num))

theorem hiddenBit_le_significand (h : 0 < exponent num den) : hiddenBit ≤ significand num den :=
  (isNearest_mul _ (unit_pos hden num)).mono (unit_pos hden num) (isNearest_significand hden num)
    (exponent_le_self hden h)

end Exponent

/-! ## What the nearest double is worth -/

theorem units_count {s m : Nat} (hm : m ≤ 2 * hiddenBit) (hs : s = 0 ∨ hiddenBit ≤ m) :
    units (s * hiddenBit + m) = m * 2 ^ s := by
  unfold units
  rcases Nat.lt_or_ge m hiddenBit with hlt | hge
  · obtain rfl : s = 0 := hs.resolve_right (by omega)
    simp [hlt]
  · rw [if_neg (by omega), Nat.pow_eq]
    rcases Nat.lt_or_eq_of_le hm with hlt | rfl
    · have hmod : (s * hiddenBit + m) % hiddenBit = m - hiddenBit := by
        unfold hiddenBit at *
        omega
      have hdiv : (s * hiddenBit + m) / hiddenBit = s + 1 := by
        unfold hiddenBit at *
        omega
      rw [hmod, hdiv, Nat.add_sub_cancel, Nat.add_sub_cancel' hge]
    · have hmod : (s * hiddenBit + 2 * hiddenBit) % hiddenBit = 0 := by
        unfold hiddenBit
        omega
      have hdiv : (s * hiddenBit + 2 * hiddenBit) / hiddenBit = s + 2 := by
        unfold hiddenBit
        omega
      rw [hmod, hdiv, show s + 2 - 1 = s + 1 by omega, Nat.pow_succ]
      unfold hiddenBit
      omega

theorem units_nearest {num den : Nat} (hden : 0 < den) (h : nearest num den < infinity) :
    units (nearest num den) = significand num den * 2 ^ exponent num den := by
  have hcount : nearest num den = exponent num den * hiddenBit + significand num den := by
    rw [nearest_eq] at h ⊢
    omega
  have hs : exponent num den = 0 ∨ hiddenBit ≤ significand num den := by
    rcases Nat.eq_zero_or_pos (exponent num den) with hzero | hpos
    · exact .inl hzero
    · exact .inr (hiddenBit_le_significand hden hpos)
  rw [hcount, units_count (significand_le hden num) hs]

theorem units_nearest_mul {num den : Nat} (hden : 0 < den) (h : nearest num den < infinity) :
    units (nearest num den) * den = significand num den * (den * 2 ^ exponent num den) := by
  rw [units_nearest hden h, Nat.mul_assoc, Nat.mul_comm (2 ^ _) den]

/-- What is not too small differs from its nearest double by less than one part in `2 ^ 53`. -/
theorem dist_units_nearest {num den : Nat} (hden : 0 < den) (h : nearest num den < infinity)
    (hnum : hiddenBit * den ≤ num) :
    2 * hiddenBit * Nat.dist (units (nearest num den) * den) num < num := by
  have hself : hiddenBit * (den * 2 ^ exponent num den) ≤ num := by
    rcases Nat.eq_zero_or_pos (exponent num den) with hzero | hpos
    · rwa [hzero, Nat.pow_zero, Nat.mul_one]
    · exact exponent_le_self hden hpos
  have hle := (isNearest_significand hden num).le
  have hge := (isNearest_significand hden num).ge
  rw [units_nearest_mul hden h, Nat.dist]
  generalize den * 2 ^ exponent num den = D at *
  -- The bound is reached only half way between two multiples of `D`, and `hiddenBit * D` is one.
  rcases Nat.lt_trichotomy (significand num den) hiddenBit with hm | hm | hm
  · have := Nat.mul_le_mul_right D (Nat.succ_le_of_lt hm)
    rw [Nat.succ_mul] at this
    unfold hiddenBit at *
    omega
  · rw [hm] at hle hge ⊢
    unfold hiddenBit at *
    omega
  · have := Nat.mul_le_mul_right D (Nat.succ_le_of_lt hm)
    rw [Nat.succ_mul] at this
    unfold hiddenBit at *
    omega

/-! ## The order of fractions -/

theorem units_mono {p q : Nat} (h : p ≤ q) : units p ≤ units q := by
  have hpos := hiddenBit_pos
  unfold units
  simp only [Nat.pow_eq]
  by_cases hq : q < hiddenBit
  · rw [if_pos (Nat.lt_of_le_of_lt h hq), if_pos hq]
    exact h
  · rw [if_neg hq]
    by_cases hp : p < hiddenBit
    · rw [if_pos hp]
      have := Nat.le_mul_of_pos_right (hiddenBit + q % hiddenBit)
        (Nat.two_pow_pos (q / hiddenBit - 1))
      omega
    · rw [if_neg hp]
      rcases Nat.lt_or_eq_of_le (Nat.div_le_div_right (c := hiddenBit) h) with hlt | heq
      · have hone : 1 ≤ p / hiddenBit := (Nat.le_div_iff_mul_le hpos).2 (by omega)
        have hmod := Nat.mod_lt p hpos
        calc (hiddenBit + p % hiddenBit) * 2 ^ (p / hiddenBit - 1)
            ≤ hiddenBit * 2 * 2 ^ (p / hiddenBit - 1) := Nat.mul_le_mul_right _ (by omega)
          _ = hiddenBit * 2 ^ (p / hiddenBit) := by
            rw [Nat.mul_assoc, ← Nat.pow_succ', Nat.succ_eq_add_one, Nat.sub_add_cancel hone]
          _ ≤ (hiddenBit + q % hiddenBit) * 2 ^ (q / hiddenBit - 1) :=
            Nat.mul_le_mul (by omega) (Nat.pow_le_pow_right (by decide) (by omega))
      · rw [heq]
        have hp := Nat.div_add_mod p hiddenBit
        have hq := Nat.div_add_mod q hiddenBit
        rw [heq] at hp
        exact Nat.mul_le_mul_right _ (by omega)

theorem nearest_mono {m n : Nat} (h : m ≤ n) : nearest m 1 ≤ nearest n 1 := by
  have hone : 0 < 1 := Nat.one_pos
  have hle : exponent m 1 ≤ exponent n 1 :=
    exponent_le hone (Nat.lt_of_le_of_lt h (lt_exponent_succ hone n))
  rw [nearest_eq, nearest_eq]
  refine Nat.le_min.2 ⟨Nat.min_le_left _ _, Nat.le_trans (Nat.min_le_right _ _) ?_⟩
  rcases Nat.lt_or_eq_of_le hle with hlt | heq
  · have htop := significand_le hone m
    have hbottom := hiddenBit_le_significand hone (Nat.zero_lt_of_lt hlt)
    have hsteps := Nat.mul_le_mul_right hiddenBit (Nat.succ_le_of_lt hlt)
    rw [Nat.succ_mul] at hsteps
    omega
  · have hD : 0 < 1 * 2 ^ exponent n 1 := Nat.mul_pos hone (Nat.two_pow_pos _)
    rw [heq]
    refine Nat.add_le_add_left ?_ _
    unfold significand
    rw [heq]
    exact (isNearest_roundHalfEven m hD).mono hD (isNearest_roundHalfEven n hD) h

theorem nearest_mul_two_pow_lt_infinity {num s : Nat} (h : num < 2 * hiddenBit * 2 ^ s)
    (hs : s ≤ 2044) : nearest num 1 < infinity := by
  refine nearest_lt_infinity (k := 53 + s) ?_ (by omega)
  rw [Nat.div_one, Nat.pow_eq, Nat.pow_add]
  exact h

/-- Among the doubles that lie `2 ^ s` apart, the nearest one is found by counting. -/
theorem units_nearest_of_isNearest {num s m : Nat} (hs : s ≤ 2044) (hlo : hiddenBit * 2 ^ s ≤ num)
    (hhi : num < 2 * hiddenBit * 2 ^ s) (hm : IsNearest num (2 ^ s) m) :
    units (nearest num 1) = m * 2 ^ s := by
  have hexponent : exponent num 1 = s :=
    exponent_eq Nat.one_pos (by rwa [Nat.one_mul]) (by rwa [Nat.one_mul])
  rw [units_nearest Nat.one_pos (nearest_mul_two_pow_lt_infinity hhi hs), significand, hexponent,
    Nat.one_mul, (roundHalfEven_eq_iff (Nat.two_pow_pos s)).2 hm]

theorem units_nearest_of_lt {m s : Nat} (hm : m < 2 * hiddenBit) (hs : s ≤ 2044) :
    units (nearest (m * 2 ^ s) 1) = m * 2 ^ s := by
  have hbound : m * 2 ^ s < 2 * hiddenBit * 2 ^ s :=
    Nat.mul_lt_mul_of_pos_right hm (Nat.two_pow_pos s)
  have hexponent : exponent (m * 2 ^ s) 1 ≤ s := exponent_le Nat.one_pos (by rwa [Nat.one_mul])
  have hsplit : m * 2 ^ s = m * 2 ^ (s - exponent (m * 2 ^ s) 1) * 2 ^ exponent (m * 2 ^ s) 1 := by
    rw [Nat.mul_assoc, ← Nat.pow_add, Nat.sub_add_cancel hexponent]
  rw [units_nearest Nat.one_pos (nearest_mul_two_pow_lt_infinity hbound hs), significand,
    Nat.one_mul]
  generalize exponent (m * 2 ^ s) 1 = e at *
  rw [hsplit, roundHalfEven_mul_right _ (Nat.two_pow_pos e)]

/-- A number of no more than 53 binary digits, wherever they stand, is a double. -/
theorem units_nearest_of_le {m s : Nat} (hm : m ≤ 2 * hiddenBit) (hs : s ≤ 2043) :
    units (nearest (m * 2 ^ s) 1) = m * 2 ^ s := by
  rcases Nat.lt_or_eq_of_le hm with hlt | rfl
  · exact units_nearest_of_lt hlt (by omega)
  · rw [Nat.mul_comm 2, Nat.mul_assoc, ← Nat.pow_succ']
    exact units_nearest_of_lt (by decide) (by omega)

/-! ## Fractions with the same nearest double -/

/-- A fraction no further from the double nearest to another one has the same nearest double, away
from the powers of two, where the doubles on the two sides lie at different distances. -/
theorem nearest_eq_of_dist_le {num num' den : Nat} (hden : 0 < den)
    (hfinite : nearest num den < infinity) (hlo : hiddenBit < significand num den)
    (hhi : significand num den < 2 * hiddenBit)
    (h : Nat.dist (units (nearest num den) * den) num' ≤
      Nat.dist (units (nearest num den) * den) num) : nearest num' den = nearest num den := by
  rw [units_nearest_mul hden hfinite] at h
  have hnear' : IsNearest num' (den * 2 ^ exponent num den) (significand num den) := by
    obtain ⟨hle, hge, heven⟩ := isNearest_significand hden num
    unfold Nat.dist at h
    exact ⟨by omega, by omega, fun htie => heven (by omega)⟩
  have hexponent : exponent num' den = exponent num den := by
    have hbelow := Nat.mul_le_mul_right (den * 2 ^ exponent num den) (Nat.succ_le_of_lt hlo)
    have habove := Nat.mul_le_mul_right (den * 2 ^ exponent num den) (Nat.succ_le_of_lt hhi)
    rw [Nat.succ_mul] at hbelow habove
    have hle := hnear'.le
    have hge := hnear'.ge
    have hpos := unit_pos hden num
    exact exponent_eq hden (by omega) (by omega)
  have hsignificand : significand num' den = significand num den := by
    rw [significand, hexponent]
    exact (roundHalfEven_eq_iff (unit_pos hden num)).2 hnear'
  rw [nearest_eq, nearest_eq, hexponent, hsignificand]

end Double
end PocketCalc
