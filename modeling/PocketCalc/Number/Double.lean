/-!
# Doubles as whole numbers

A double without its sign bit is a *pattern*.  The patterns below `infinity` stand
for the finite magnitudes, in order, and each of these magnitudes is a whole number
of units of `2 ^ -1074`, the least positive double.  `units` reads a pattern and
`nearest` goes back from any fraction of units to the pattern of the nearest double.
The statement the rest of the library rests on is `nearest_units`: a double is
nearest to itself.
-/

namespace PocketCalc
namespace Double

/-- The pattern with nothing but the sign bit, `2 ^ 63`. -/
def signBit : Nat := 0x8000000000000000

/-- The leading bit of a significand, `2 ^ 52`.  A pattern does not show it. -/
def hiddenBit : Nat := 0x10000000000000

/-- The pattern of infinity.  Patterns above it are not numbers. -/
def infinity : Nat := 2047 * hiddenBit

/-- The pattern of the one value that is not a number. -/
def notANumber : Nat := 0x7ff8000000000000

/-- The binary places of a unit: a unit is `2 ^ -places`.  Proofs use the number only
where they unfold it. -/
@[irreducible]
def places : Nat := 1074

/-- How many units make one. -/
def one : Nat := Nat.pow 2 places

/-- The magnitude a pattern stands for, in units.  The low 52 bits are the fraction;
the bits above them give the power of two, and every power but the lowest adds the
hidden bit. -/
def units (p : Nat) : Nat :=
  if p < hiddenBit then p else (hiddenBit + p % hiddenBit) * Nat.pow 2 (p / hiddenBit - 1)

/-- The whole number nearest to `num / den`; a half goes to the even neighbour. -/
def roundHalfEven (num den : Nat) : Nat :=
  let q := num / den
  let r := num % den
  if 2 * r < den ∨ (2 * r = den ∧ q % 2 = 0) then q else q + 1

/-- The whole number nearest to `num / den`; a half goes up. -/
def roundHalfUp (num den : Nat) : Nat := (2 * num + den) / (2 * den)

/-- The pattern of the double nearest to `num / den` units, ties to even.  Magnitudes
of `2 ^ (53 + s)` units and more are multiples of `2 ^ s`, and counting in these steps
makes the carry of a rounded-up significand move into the power of two by itself. -/
def nearest (num den : Nat) : Nat :=
  let s := (num / den).log2 - 52
  min infinity (s * hiddenBit + roundHalfEven num (den * Nat.pow 2 s))

/-- The sign bit. -/
def isNegative (x : Float) : Bool := signBit ≤ x.toBits.toNat

/-- The double without its sign. -/
def pattern (x : Float) : Nat := x.toBits.toNat % signBit

/-- The double with a given sign and pattern. -/
def ofPattern (negative : Bool) (p : Nat) : Float :=
  Float.ofBits (UInt64.ofNat ((if negative then signBit else 0) + p))

/-- The value that is not a number. -/
def nan : Float := ofPattern false notANumber

/-! ## A double is nearest to itself -/

theorem roundHalfEven_one (n : Nat) : roundHalfEven n 1 = n := by
  simp [roundHalfEven, Nat.mod_one]

theorem roundHalfEven_mul_right (n : Nat) {d : Nat} (hd : 0 < d) :
    roundHalfEven (n * d) d = n := by
  simp [roundHalfEven, hd]

theorem nearest_of_lt {n : Nat} (h : n < 2 * hiddenBit) : nearest n 1 = n := by
  have hlog : n.log2 - 52 = 0 := by
    by_cases h0 : n = 0
    · subst h0; rfl
    · have := (Nat.log2_lt h0).2 (show n < 2 ^ 53 from h)
      omega
  have hinf : n ≤ infinity := by unfold infinity; omega
  simp only [nearest, Nat.div_one, hlog, Nat.pow_eq, Nat.pow_zero, Nat.mul_one, Nat.zero_mul,
    Nat.zero_add, roundHalfEven_one]
  omega

theorem nearest_normal {f s : Nat} (hf : f < hiddenBit) (hs : s ≤ 2045) :
    nearest ((hiddenBit + f) * Nat.pow 2 s) 1 = (s + 1) * hiddenBit + f := by
  have hpos : 0 < 2 ^ s := Nat.two_pow_pos s
  have hhidden : hiddenBit = 2 ^ 52 := rfl
  have hlog : ((hiddenBit + f) * 2 ^ s).log2 = 52 + s := by
    have hne : (hiddenBit + f) * 2 ^ s ≠ 0 := Nat.mul_ne_zero (by omega) (by omega)
    refine (Nat.log2_eq_iff hne).2 ⟨?_, ?_⟩
    · rw [Nat.pow_add]
      exact Nat.mul_le_mul_right _ (by omega)
    · rw [show 52 + s + 1 = 53 + s by omega, Nat.pow_add]
      exact Nat.mul_lt_mul_of_pos_right (by omega) hpos
  simp only [nearest, Nat.pow_eq, Nat.div_one, hlog, Nat.one_mul, show 52 + s - 52 = s by omega,
    roundHalfEven_mul_right _ hpos]
  unfold infinity
  have hle : s * hiddenBit + (hiddenBit + f) ≤ 2047 * hiddenBit := by
    have := Nat.mul_le_mul_right hiddenBit hs
    omega
  rw [Nat.min_eq_right hle, Nat.succ_mul, Nat.add_assoc]

/-- The nearest double to the magnitude of a double is that double. -/
theorem nearest_units {p : Nat} (h : p < infinity) : nearest (units p) 1 = p := by
  unfold infinity at h
  unfold units
  split
  · exact nearest_of_lt (by omega)
  · next hge =>
    have hpos : 0 < hiddenBit := by decide
    have hq : 1 ≤ p / hiddenBit := (Nat.le_div_iff_mul_le hpos).2 (by omega)
    have hq' : p / hiddenBit < 2047 := (Nat.div_lt_iff_lt_mul hpos).2 h
    rw [nearest_normal (Nat.mod_lt _ hpos) (by omega), Nat.sub_add_cancel hq, Nat.mul_comm]
    exact Nat.div_add_mod p hiddenBit

theorem roundHalfEven_mul_mul (num den : Nat) {k : Nat} (hk : 0 < k) :
    roundHalfEven (num * k) (den * k) = roundHalfEven num den := by
  have hdiv : num * k / (den * k) = num / den := Nat.mul_div_mul_right _ _ hk
  have hmod : num * k % (den * k) = num % den * k := Nat.mul_mod_mul_right _ _ _
  have hlt : 2 * (num % den * k) < den * k ↔ 2 * (num % den) < den := by
    rw [← Nat.mul_assoc]
    exact Nat.mul_lt_mul_right hk
  have heq : 2 * (num % den * k) = den * k ↔ 2 * (num % den) = den := by
    rw [← Nat.mul_assoc]
    exact Nat.mul_left_inj (by omega)
  simp only [roundHalfEven, hdiv, hmod, hlt, heq]

/-- The nearest double depends on the fraction alone, not on how it is written. -/
theorem nearest_mul_mul (num den : Nat) {k : Nat} (hk : 0 < k) :
    nearest (num * k) (den * k) = nearest num den := by
  have hdiv : num * k / (den * k) = num / den := Nat.mul_div_mul_right _ _ hk
  simp only [nearest, hdiv]
  rw [Nat.mul_right_comm den k, roundHalfEven_mul_mul _ _ hk]

end Double
end PocketCalc
