import PocketCalc.Proofs.Number.Nearest

/-!
# Rounding a rounded number

A number is rounded to a whole number of steps of `10 ^ -places`, and then to the double nearest to
that many steps.  Rounded again, this double is scaled once more, and the product is off by less
than one part in `2 ^ 53` before it is made a double itself.  Up to `2 ^ 51` steps that is less than
a quarter of a step and the same number of steps comes out.  From `2 ^ 52` steps on the product may
come out as a neighbouring number of steps, but that has the same nearest double.  In between, the
doubles lie half a step apart, and a product more than a quarter of a step too great is taken half a
step up, which rounds to the next step.  So a rounded number stays as it is unless it `Drifts`, and
then it moves on by one step (`round_again`).
-/

namespace PocketCalc
namespace Double

theorem isNegative_ofPattern (negative : Bool) {p : Nat} (h : p < infinity) :
    isNegative (ofPattern negative p) = negative := by
  unfold isNegative
  rw [toNat_toBits_ofPattern negative h]
  unfold infinity hiddenBit at h
  unfold signBit
  cases negative with
  | true => simp
  | false =>
    simp
    omega

theorem hiddenBit_eq : hiddenBit = 2 ^ 52 := rfl

theorem exists_one_eq_mul {k : Nat} (h : k ≤ 1074) : ∃ s, s ≤ 1074 ∧ one = 2 ^ k * 2 ^ s := by
  refine ⟨places - k, ?_, ?_⟩
  · unfold places
    omega
  · have hk : k ≤ places := by
      unfold places
      exact h
    rw [← Nat.pow_add, Nat.add_sub_cancel' hk]
    rfl

/-- The parts `one / 2 ^ k` are doubles, and so are up to `2 ^ 53` of them. -/
theorem le_units_nearest {m k t : Nat} (hm : m ≤ 2 * hiddenBit) (hk : k ≤ 1074)
    (h : m * one ≤ 2 ^ k * t) : m * one ≤ 2 ^ k * units (nearest t 1) := by
  obtain ⟨s, hs, hone⟩ := exists_one_eq_mul hk
  rw [hone, Nat.mul_left_comm] at h ⊢
  have hle := units_mono (nearest_mono (Nat.le_of_mul_le_mul_left h (Nat.two_pow_pos k)))
  rw [units_nearest_of_le hm (by omega)] at hle
  exact Nat.mul_le_mul_left _ hle

theorem units_nearest_le {m k t : Nat} (hm : m ≤ 2 * hiddenBit) (hk : k ≤ 1074)
    (h : 2 ^ k * t ≤ m * one) : 2 ^ k * units (nearest t 1) ≤ m * one := by
  obtain ⟨s, hs, hone⟩ := exists_one_eq_mul hk
  rw [hone, Nat.mul_left_comm] at h ⊢
  have hle := units_mono (nearest_mono (Nat.le_of_mul_le_mul_left h (Nat.two_pow_pos k)))
  rw [units_nearest_of_le hm (by omega)] at hle
  exact Nat.mul_le_mul_left _ hle

/-- Where the doubles lie `one / 2 ^ k` apart, the nearest one is found by counting. -/
theorem units_nearest_eq {m k t : Nat} (hk : k ≤ 1074) (hlo : hiddenBit * one ≤ 2 ^ k * t)
    (hhi : 2 ^ k * t < 2 * hiddenBit * one) (hm : IsNearest (2 ^ k * t) one m) :
    2 ^ k * units (nearest t 1) = m * one := by
  obtain ⟨s, hs, hone⟩ := exists_one_eq_mul hk
  have hpos := Nat.two_pow_pos k
  rw [hone, Nat.mul_left_comm] at hlo hhi
  rw [hone, ← roundHalfEven_eq_iff (Nat.mul_pos hpos (Nat.two_pow_pos s)), Nat.mul_comm,
    Nat.mul_comm (2 ^ k), roundHalfEven_mul_mul _ _ hpos,
    roundHalfEven_eq_iff (Nat.two_pow_pos s)] at hm
  rw [hone, Nat.mul_left_comm, units_nearest_of_isNearest (by omega)
    (Nat.le_of_mul_le_mul_left hlo hpos) (Nat.lt_of_mul_lt_mul_left hhi) hm]

theorem nearest_zero {den : Nat} (hden : 0 < den) : nearest 0 den = 0 := by
  simp [nearest_eq, exponent, significand, roundHalfEven, hden]

theorem roundHalfUp_one_eq {t n : Nat} (hlo : 2 * (n * one) ≤ 2 * t + one)
    (hhi : 2 * t < 2 * (n * one) + one) : roundHalfUp t one = n := by
  have hone := one_pos
  refine Nat.div_eq_of_lt_le ?_ ?_
  · rw [Nat.mul_left_comm]
    exact hlo
  · rw [Nat.succ_mul n, Nat.mul_left_comm]
    omega

end Double

namespace Number

open Double

/-- The power of ten that a number is scaled by. -/
def scale (places : Nat) : Nat := Nat.pow 10 (min places maxPlaces)

/-- A number times the scale, as a double, in units. -/
def scaled (x : Float) (places : Nat) : Nat := units (nearest (units (pattern x) * scale places) 1)

/-- The whole number of steps of `10 ^ -places` that a number is rounded to. -/
def steps (x : Float) (places : Nat) : Nat := roundHalfUp (scaled x places) one

/-- The double nearest to a number of steps. -/
def ofSteps (negative : Bool) (n places : Nat) : Float :=
  ofPattern negative (nearest (n * one) (scale places))

/-- The double nearest to a number of steps times the scale, in units and not rounded. -/
def product (n places : Nat) : Nat := units (nearest (n * one) (scale places)) * scale places

theorem round_eq (x : Float) (places : Nat) : round x places =
    if scaled x places < 2 * hiddenBit * one then
      if steps x places = 0 then ofPattern false 0
      else ofSteps (isNegative x) (steps x places) places
    else x := rfl

theorem hiddenBit_mul_scale_le_one (places : Nat) : hiddenBit * scale places ≤ one :=
  calc hiddenBit * 10 ^ min places maxPlaces ≤ hiddenBit * 10 ^ 15 :=
        Nat.mul_le_mul_left _ (Nat.pow_le_pow_right (by decide) (Nat.min_le_right _ _))
    _ ≤ 2 ^ 102 := by decide
    _ ≤ one := two_pow_le_one (by decide)

/-! ## Half a step and a quarter of a step -/

section Half

variable {n d p : Nat}

theorem mul_add_one_mul (c n d : Nat) : (c * n + 1) * d = c * (n * d) + d := by
  rw [Nat.succ_mul, Nat.mul_assoc]

theorem lt_of_quarter (h : (4 * n + 1) * d < 4 * p) : n * d < p := by
  rw [mul_add_one_mul] at h
  omega

theorem eq_of_dist_mul_lt {c : Nat} (h : Nat.dist (c * d) (n * d) < d) : c = n := by
  rw [Nat.dist_mul_right] at h
  have hzero : Nat.dist c n < 1 := Nat.lt_of_mul_lt_mul_right (a := d) (by rwa [Nat.one_mul])
  exact Nat.eq_of_dist_eq_zero (Nat.lt_one_iff.1 hzero)

theorem isNearest_twice (hle : n * d ≤ p) (h : 4 * p ≤ (4 * n + 1) * d) :
    IsNearest (2 ^ 1 * p) d (2 * n) := by
  rw [mul_add_one_mul] at h
  constructor <;> rw [Nat.mul_assoc 2 n]
  · omega
  · omega
  · omega

theorem isNearest_twice_succ (h : (4 * n + 1) * d < 4 * p) (hhalf : 2 * Nat.dist p (n * d) < d) :
    IsNearest (2 ^ 1 * p) d (2 * n + 1) := by
  rw [mul_add_one_mul] at h
  unfold Nat.dist at hhalf
  constructor <;> rw [mul_add_one_mul]
  · omega
  · omega
  · omega

theorem hiddenBit_mul_one_le (hmany : hiddenBit ≤ 2 * n) (hle : n * d ≤ p) :
    hiddenBit * d ≤ 2 ^ 1 * p := by
  have hlo := Nat.mul_le_mul_right d hmany
  rw [Nat.mul_assoc 2] at hlo
  omega

theorem lt_hiddenBit_mul_one (hlt : n < hiddenBit) (hhalf : 2 * Nat.dist p (n * d) < d) :
    2 ^ 1 * p < 2 * hiddenBit * d := by
  have hhi := Nat.mul_le_mul_right d (Nat.succ_le_of_lt hlt)
  unfold Nat.dist at hhalf
  rw [Nat.succ_mul n] at hhi
  rw [Nat.mul_assoc 2]
  omega

end Half

/-! ## Fewer than `2 ^ 52` steps -/

section Product

variable {n : Nat} (hn : 0 < n) (places : Nat)
include hn

/-- The product differs from the whole number of steps by less than one part in `2 ^ 53`. -/
theorem dist_product (hle : n ≤ 2 * hiddenBit) :
    2 * hiddenBit * Nat.dist (product n places) (n * one) < n * one := by
  refine dist_units_nearest (scale_pos places) (nearest_whole_lt_infinity hle _) ?_
  exact Nat.le_trans (hiddenBit_mul_scale_le_one places) (Nat.le_mul_of_pos_left one hn)

theorem two_mul_dist_product_lt_one (hle : n ≤ hiddenBit) :
    2 * Nat.dist (product n places) (n * one) < one := by
  have hdist := dist_product hn places (by omega)
  have hbound := Nat.mul_le_mul_right one hle
  unfold hiddenBit at hdist hbound
  omega

theorem le_nearest_product (hle : n ≤ hiddenBit) :
    2 * (n * one) ≤ 2 * units (nearest (product n places) 1) + one := by
  have hhalf := two_mul_dist_product_lt_one hn places hle
  unfold Nat.dist at hhalf
  have hhalves : (2 * n - 1) * one = 2 * (n * one) - one := by
    rw [Nat.sub_mul, Nat.mul_assoc, Nat.one_mul]
  have := le_units_nearest (m := 2 * n - 1) (k := 1) (t := product n places) (by omega) (by decide)
    (by omega)
  omega

/-- A product no more than a quarter of a step too great has its nearest double less than half a
step above. -/
theorem nearest_product_lt (hlt : n < hiddenBit)
    (h : 4 * product n places ≤ (4 * n + 1) * one) :
    2 * units (nearest (product n places) 1) < 2 * (n * one) + one := by
  have hone := one_pos
  rcases Nat.lt_or_ge (n * one) (product n places) with hgt | hle
  · rcases Nat.lt_or_ge (4 * n) (2 * hiddenBit) with hfew | hmany
    · have hle := units_nearest_le (m := 4 * n + 1) (k := 2) (by omega) (by decide) h
      rw [mul_add_one_mul] at hle
      omega
    · -- The doubles lie half a step apart here, and the whole number of steps is nearest.
      have hnear := isNearest_twice (Nat.le_of_lt hgt) h
      have hhalf := two_mul_dist_product_lt_one hn places (Nat.le_of_lt hlt)
      have hcount := units_nearest_eq (k := 1) (by decide)
        (hiddenBit_mul_one_le (by omega) (Nat.le_of_lt hgt)) (lt_hiddenBit_mul_one hlt hhalf) hnear
      rw [Nat.mul_assoc] at hcount
      omega
  · have := units_nearest_le (m := n) (k := 0) (t := product n places) (by omega) (by decide)
      (by omega)
    omega

/-- A product more than a quarter of a step too great has its nearest double half a step above. -/
theorem nearest_product_eq (hlt : n < hiddenBit) (h : (4 * n + 1) * one < 4 * product n places) :
    hiddenBit < 2 * n ∧ 2 * units (nearest (product n places) 1) = (2 * n + 1) * one := by
  have hhalf := two_mul_dist_product_lt_one hn places (Nat.le_of_lt hlt)
  have hgt := lt_of_quarter h
  have hmany : hiddenBit < 2 * n := by
    have hdist := dist_product hn places (by omega)
    refine Nat.lt_of_mul_lt_mul_right (a := one) ?_
    rw [mul_add_one_mul] at h
    rw [Nat.mul_assoc 2]
    unfold hiddenBit Nat.dist at *
    omega
  exact ⟨hmany, units_nearest_eq (k := 1) (by decide)
    (hiddenBit_mul_one_le (Nat.le_of_lt hmany) (Nat.le_of_lt hgt)) (lt_hiddenBit_mul_one hlt hhalf)
    (isNearest_twice_succ h hhalf)⟩

end Product

/-! ## From `2 ^ 52` steps on -/

/-- A power of two times a power of ten that is worth `2 ^ 52` or more is a whole number. -/
theorem exists_mul_one_of_two_pow {j k : Nat} (hk : k ≤ 15) (h : hiddenBit * one ≤ 2 ^ j * 10 ^ k) :
    ∃ c, 2 ^ j * 10 ^ k = c * one := by
  have hsplit : 2 ^ j * 10 ^ k = 5 ^ k * 2 ^ (j + k) := by
    rw [Nat.pow_add, Nat.mul_left_comm, ← Nat.mul_pow]
  have hfives : 5 ^ k ≤ 5 ^ 15 := Nat.pow_le_pow_right (by decide) hk
  rcases Nat.lt_or_ge (j + k) Double.places with hlt | hge
  · have hpow : 2 ^ (j + k) ≤ one := Nat.pow_le_pow_right (by decide) (Nat.le_of_lt hlt)
    have hbound := Nat.mul_le_mul hfives hpow
    have hone := one_pos
    rw [← hsplit] at hbound
    unfold hiddenBit at h
    omega
  · refine ⟨5 ^ k * 2 ^ (j + k - Double.places), ?_⟩
    rw [hsplit, Nat.mul_assoc]
    unfold one
    rw [Nat.pow_eq, ← Nat.pow_add, Nat.sub_add_cancel hge]

section Product

variable {n : Nat} (places : Nat) (hge : hiddenBit ≤ n) (hle : n ≤ 2 * hiddenBit)
include hge hle

theorem dist_product_lt_one : Nat.dist (product n places) (n * one) < one := by
  have hn : 0 < n := Nat.lt_of_lt_of_le hiddenBit_pos hge
  have hdist := dist_product hn places hle
  have hbound := Nat.mul_le_mul_right one hle
  exact Nat.lt_of_mul_lt_mul_left (Nat.lt_of_lt_of_le hdist hbound)

/-- The double nearest to so many steps is no power of two, unless its product with the scale is a
whole number of steps. -/
theorem significand_inner (hproduct : hiddenBit * one ≤ product n places)
    (h : ∀ c, product n places ≠ c * one) :
    hiddenBit < significand (n * one) (scale places) ∧
      significand (n * one) (scale places) < 2 * hiddenBit := by
  have hscale : 0 < scale places := scale_pos places
  have hfinite : nearest (n * one) (scale places) < infinity := nearest_whole_lt_infinity hle _
  have hworth := units_nearest hscale hfinite
  have hpower : ∀ j, units (nearest (n * one) (scale places)) ≠ 2 ^ j := by
    intro j hj
    have hj' : product n places = 2 ^ j * 10 ^ min places maxPlaces := by
      rw [product, hj]
      rfl
    rw [hj'] at hproduct
    obtain ⟨c, hc⟩ := exists_mul_one_of_two_pow (Nat.min_le_right places maxPlaces) hproduct
    exact h c (hj'.trans hc)
  have hexponent : 0 < exponent (n * one) (scale places) := by
    refine Nat.pos_of_ne_zero fun hzero => ?_
    have hself := lt_exponent_succ hscale (n * one)
    have hsteps := Nat.mul_le_mul_right one hge
    have hone := hiddenBit_mul_scale_le_one places
    rw [hzero, Nat.pow_zero, Nat.mul_one] at hself
    unfold hiddenBit at *
    omega
  have hlo := hiddenBit_le_significand hscale hexponent
  have hhi := significand_le hscale (n * one)
  refine ⟨Nat.lt_of_le_of_ne hlo fun heq => ?_, Nat.lt_of_le_of_ne hhi fun heq => ?_⟩
  · refine hpower (52 + exponent (n * one) (scale places)) ?_
    rw [hworth, ← heq, Nat.pow_add, hiddenBit_eq]
  · refine hpower (53 + exponent (n * one) (scale places)) ?_
    rw [hworth, heq, Nat.pow_add, hiddenBit_eq, ← Nat.pow_succ']

/-- The whole number nearest to the product has the same nearest double as the one the product
comes from. -/
theorem nearest_of_isNearest_product (hproduct : hiddenBit * one ≤ product n places) {v : Nat}
    (hv : IsNearest (product n places) one v) :
    nearest (v * one) (scale places) = nearest (n * one) (scale places) := by
  by_cases hwhole : ∃ c, product n places = c * one
  · obtain ⟨c, hc⟩ := hwhole
    have hdist := dist_product_lt_one places hge hle
    rw [hc] at hv hdist
    rw [hv.unique Double.one_pos (isNearest_mul c Double.one_pos), eq_of_dist_mul_lt hdist]
  · obtain ⟨hlo, hhi⟩ := significand_inner places hge hle hproduct fun c hc => hwhole ⟨c, hc⟩
    exact nearest_eq_of_dist_le (scale_pos places) (nearest_whole_lt_infinity hle _) hlo hhi
      (hv.dist_le n)

/-- Scaled and rounded again, so many steps have the same nearest double as before. -/
theorem nearest_again (hscaled : units (nearest (product n places) 1) < 2 * hiddenBit * one) :
    nearest (roundHalfUp (units (nearest (product n places) 1)) one * one) (scale places) =
      nearest (n * one) (scale places) := by
  have hone := Double.one_pos
  rcases Nat.lt_or_ge (product n places) (hiddenBit * one) with hlt | hproduct
  · -- Only `2 ^ 52` steps can have so small a product.
    have hn : n = hiddenBit := by
      have hdist := dist_product_lt_one places hge hle
      unfold Nat.dist at hdist
      refine Nat.le_antisymm (Nat.le_of_lt_succ ?_) hge
      refine Nat.lt_of_mul_lt_mul_right (a := one) ?_
      rw [Nat.succ_mul hiddenBit]
      omega
    have hlo := le_nearest_product (Nat.lt_of_lt_of_le hiddenBit_pos hge) places (Nat.le_of_eq hn)
    have hhi := units_nearest_le (m := hiddenBit) (k := 0) (t := product n places) (by decide)
      (by decide) (by rw [Nat.pow_zero, Nat.one_mul]; exact Nat.le_of_lt hlt)
    rw [Nat.pow_zero, Nat.one_mul, ← hn] at hhi
    rw [roundHalfUp_one_eq hlo (by omega)]
  · have hbelow : product n places < 2 * hiddenBit * one := by
      refine Nat.not_le.1 fun habove => Nat.not_le_of_lt hscaled ?_
      have := le_units_nearest (k := 0) (t := product n places) (Nat.le_refl _) (by decide)
        (by rwa [Nat.pow_zero, Nat.one_mul])
      rwa [Nat.pow_zero, Nat.one_mul] at this
    have hnear := isNearest_roundHalfEven (product n places) hone
    have hcount := units_nearest_eq (k := 0) (t := product n places) (by decide)
      (by rwa [Nat.pow_zero, Nat.one_mul]) (by rwa [Nat.pow_zero, Nat.one_mul])
      (by rwa [Nat.pow_zero, Nat.one_mul])
    rw [Nat.pow_zero, Nat.one_mul] at hcount
    rw [hcount, roundHalfUp_one_eq (Nat.le_add_right _ _) (Nat.lt_add_of_pos_right hone)]
    exact nearest_of_isNearest_product places hge hle hproduct hnear

end Product

/-! ## Rounding steps -/

section OfSteps

variable {n : Nat} (negative : Bool) (places : Nat)

theorem pattern_ofSteps (hle : n ≤ 2 * hiddenBit) :
    pattern (ofSteps negative n places) = nearest (n * one) (scale places) :=
  pattern_ofPattern negative (nearest_whole_lt_infinity hle _)

theorem isNegative_ofSteps (hle : n ≤ 2 * hiddenBit) :
    isNegative (ofSteps negative n places) = negative :=
  isNegative_ofPattern negative (nearest_whole_lt_infinity hle _)

theorem scaled_ofSteps (hle : n ≤ 2 * hiddenBit) :
    scaled (ofSteps negative n places) places = units (nearest (product n places) 1) := by
  rw [scaled, pattern_ofSteps negative places hle, product]

theorem round_ofSteps (hle : n ≤ 2 * hiddenBit) {m : Nat}
    (hscaled : units (nearest (product n places) 1) < 2 * hiddenBit * one)
    (hsteps : roundHalfUp (units (nearest (product n places) 1)) one = m) (hm : 0 < m) :
    round (ofSteps negative n places) places = ofSteps negative m places := by
  have hsteps' : steps (ofSteps negative n places) places = m := by
    rw [steps, scaled_ofSteps negative places hle, hsteps]
  rw [round_eq, scaled_ofSteps negative places hle, if_pos hscaled, hsteps',
    if_neg (Nat.ne_of_gt hm), isNegative_ofSteps negative places hle]

theorem round_ofSteps_of_quarter (hn : 0 < n) (hlt : n < hiddenBit)
    (h : (4 * n + 1) * one < 4 * product n places) :
    round (ofSteps negative n places) places = ofSteps negative (n + 1) places := by
  have hone := Double.one_pos
  have hcount := (nearest_product_eq hn places hlt h).2
  have hbound := Nat.mul_le_mul_right one (Nat.succ_le_of_lt hlt)
  rw [mul_add_one_mul] at hcount
  rw [Nat.succ_mul n] at hbound
  have hnext : (n + 1) * one = n * one + one := Nat.succ_mul n one
  refine round_ofSteps negative places (by omega) ?_ ?_ n.succ_pos
  · rw [Nat.mul_assoc]
    omega
  · exact roundHalfUp_one_eq (by omega) (by omega)

theorem round_ofSteps_of_not_quarter (hn : 0 < n) (hle : n ≤ 2 * hiddenBit)
    (h : n < hiddenBit → 4 * product n places ≤ (4 * n + 1) * one) :
    round (ofSteps negative n places) places = ofSteps negative n places := by
  rcases Nat.lt_or_ge n hiddenBit with hlt | hge
  · have hlo := le_nearest_product hn places (Nat.le_of_lt hlt)
    have hhi := nearest_product_lt hn places hlt (h hlt)
    have hbound := Nat.mul_le_mul_right one (Nat.succ_le_of_lt hlt)
    rw [Nat.succ_mul n] at hbound
    refine round_ofSteps negative places hle ?_ (roundHalfUp_one_eq hlo hhi) hn
    rw [Nat.mul_assoc]
    omega
  · by_cases hscaled : units (nearest (product n places) 1) < 2 * hiddenBit * one
    · have hagain := nearest_again places hge hle hscaled
      have hpos : 0 < nearest (n * one) (scale places) :=
        nearest_whole_pos hn (scale_pos places) (scale_le_one places)
      have hsteps : roundHalfUp (units (nearest (product n places) 1)) one ≠ 0 := by
        intro hzero
        rw [hzero, Nat.zero_mul] at hagain
        have hzero' : nearest 0 (scale places) = 0 := nearest_zero (scale_pos places)
        omega
      rw [round_ofSteps negative places hle hscaled rfl (Nat.pos_of_ne_zero hsteps), ofSteps,
        hagain, ofSteps]
    · rw [round_eq, scaled_ofSteps negative places hle, if_neg hscaled]

/-- Neighbouring numbers of steps have different nearest doubles. -/
theorem nearest_succ_steps_ne (hn : 0 < n) (hlt : n < hiddenBit) :
    nearest ((n + 1) * one) (scale places) ≠ nearest (n * one) (scale places) := by
  intro heq
  have hfirst := two_mul_dist_product_lt_one hn places (Nat.le_of_lt hlt)
  have hsecond := two_mul_dist_product_lt_one n.succ_pos places hlt
  rw [product, heq, ← product, Nat.succ_mul n] at hsecond
  unfold Nat.dist at hfirst hsecond
  omega

end OfSteps

/-! ## Rounding a rounded number -/

/-- The rounded number, scaled, is more than a quarter of a step too great, and there are few enough
steps for the doubles around the product to be half a step apart or less. -/
def Drifts (x : Float) (places : Nat) : Prop :=
  scaled x places < 2 ^ 53 * one ∧ steps x places < 2 ^ 52 ∧
    (4 * steps x places + 1) * one < 4 * (units (pattern (round x places)) * scale places)

instance (x : Float) (places : Nat) : Decidable (Drifts x places) :=
  inferInstanceAs (Decidable (_ ∧ _ ∧ _))

theorem round_zero (places : Nat) : round (ofPattern false 0) places = ofPattern false 0 := by
  have hone := Double.one_pos
  have hscaled : scaled (ofPattern false 0) places = 0 := by
    rw [scaled, pattern_ofPattern false (by decide), show units 0 = 0 from rfl, Nat.zero_mul,
      nearest_zero Nat.one_pos]
    rfl
  have hsteps : steps (ofPattern false 0) places = 0 := by
    rw [steps, hscaled]
    exact roundHalfUp_one_eq (by omega) (by omega)
  rw [round_eq, hscaled, if_pos (Nat.mul_pos (by decide) hone), hsteps, if_pos rfl]

section Float

variable {x : Float} {places : Nat}

theorem round_eq_ofSteps (hscaled : scaled x places < 2 * hiddenBit * one)
    (hsteps : steps x places ≠ 0) :
    round x places = ofSteps (isNegative x) (steps x places) places := by
  rw [round_eq, if_pos hscaled, if_neg hsteps]

theorem drifts_iff (hscaled : scaled x places < 2 * hiddenBit * one) (hsteps : steps x places ≠ 0) :
    Drifts x places ↔ steps x places < hiddenBit ∧
      (4 * steps x places + 1) * one < 4 * product (steps x places) places := by
  have hle : steps x places ≤ 2 * hiddenBit := roundHalfUp_one_le hscaled
  rw [Drifts, round_eq_ofSteps hscaled hsteps, pattern_ofSteps _ _ hle]
  exact and_iff_right hscaled

theorem steps_ne_zero_of_drifts (h : Drifts x places) : steps x places ≠ 0 := by
  intro hzero
  have hscaled : scaled x places < 2 * hiddenBit * one := h.1
  have hround : round x places = ofPattern false 0 := by
    rw [round_eq, if_pos hscaled, if_pos hzero]
  have hquarter := h.2.2
  rw [hround, pattern_ofPattern false (by decide), show units 0 = 0 from rfl, Nat.zero_mul]
    at hquarter
  exact absurd hquarter (Nat.not_lt_zero _)

theorem round_round_of_not_drifts (h : ¬ Drifts x places) :
    round (round x places) places = round x places := by
  by_cases hscaled : scaled x places < 2 * hiddenBit * one
  · by_cases hsteps : steps x places = 0
    · rw [round_eq x, if_pos hscaled, if_pos hsteps]
      exact round_zero places
    · rw [drifts_iff hscaled hsteps, not_and] at h
      rw [round_eq_ofSteps hscaled hsteps]
      exact round_ofSteps_of_not_quarter _ places (Nat.pos_of_ne_zero hsteps)
        (roundHalfUp_one_le hscaled) fun hlt => Nat.le_of_not_lt (h hlt)
  · have hround : round x places = x := by
      rw [round_eq, if_neg hscaled]
    rw [hround, hround]

theorem round_round_of_drifts (h : Drifts x places) :
    round (round x places) places = ofSteps (isNegative x) (steps x places + 1) places := by
  have hsteps := steps_ne_zero_of_drifts h
  obtain ⟨hlt, hquarter⟩ := (drifts_iff h.1 hsteps).1 h
  rw [round_eq_ofSteps h.1 hsteps]
  exact round_ofSteps_of_quarter _ places (Nat.pos_of_ne_zero hsteps) hlt hquarter

end Float

/-- A rounded number is left as it is by rounding it again, unless it drifts.  Then it is one of
more than `2 ^ 51` and fewer than `2 ^ 52` steps, and becomes the next one away from zero. -/
theorem round_again (x : Float) (places : Nat) :
    (round (round x places) places = round x places ↔ ¬ Drifts x places) ∧
    (Drifts x places → 2 ^ 51 < steps x places ∧ steps x places < 2 ^ 52 ∧
      round x places = ofSteps (isNegative x) (steps x places) places ∧
      round (round x places) places = ofSteps (isNegative x) (steps x places + 1) places) := by
  refine ⟨⟨fun heq h => ?_, round_round_of_not_drifts⟩, fun h => ?_⟩
  · have hsteps := steps_ne_zero_of_drifts h
    have hlt := h.2.1
    have hpattern := congrArg pattern heq
    rw [round_round_of_drifts h, round_eq_ofSteps h.1 hsteps,
      pattern_ofSteps _ _ (by unfold hiddenBit; omega),
      pattern_ofSteps _ _ (by unfold hiddenBit; omega)] at hpattern
    exact nearest_succ_steps_ne places (Nat.pos_of_ne_zero hsteps) hlt hpattern
  · have hsteps := steps_ne_zero_of_drifts h
    obtain ⟨hlt, hquarter⟩ := (drifts_iff h.1 hsteps).1 h
    have hmany := (nearest_product_eq (Nat.pos_of_ne_zero hsteps) places hlt hquarter).1
    refine ⟨?_, hlt, round_eq_ofSteps h.1 hsteps, round_round_of_drifts h⟩
    unfold hiddenBit at hmany
    omega

/-- With eight places, 41325681.846999995 is rounded to 41325681.847, and this to the next step. -/
theorem round_again_drifting :
    Drifts 41325681.846999995 8 ∧ round 41325681.846999995 8 = 41325681.847 ∧
      round 41325681.847 8 = ofSteps false 4132568184700001 8 := by
  have hdrifts : Drifts 41325681.846999995 8 := by decide +kernel
  have hround : round 41325681.846999995 8 = 41325681.847 := by decide +kernel
  have hsteps : steps 41325681.846999995 8 = 4132568184700000 := by decide +kernel
  have hsign : isNegative 41325681.846999995 = false := by decide +kernel
  obtain ⟨-, -, -, hagain⟩ := (round_again _ _).2 hdrifts
  rw [hround, hsteps, hsign] at hagain
  exact ⟨hdrifts, hround, hagain⟩

/-- Rounding to eight places twice is not the same as rounding once. -/
theorem round_not_idempotent : (41325681.846999995 : Float).isFinite ∧
    round (round 41325681.846999995 8) 8 ≠ round 41325681.846999995 8 := by
  decide +kernel

end Number
end PocketCalc
