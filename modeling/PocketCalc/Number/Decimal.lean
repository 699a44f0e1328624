import PocketCalc.Number.Double

/-!
# Decimals

A decimal is a coefficient and a power of ten.  `pattern` is the double nearest to
it, and `plain` writes it without an exponent.
-/

namespace PocketCalc

/-- The decimal `coefficient * 10 ^ exponent`. -/
structure Decimal where
  coefficient : Nat
  exponent : Int
deriving DecidableEq

namespace Decimal

/-- The pattern of the double nearest to a decimal, ties to even. -/
def pattern (d : Decimal) : Nat :=
  match d.exponent with
  | .ofNat e => Double.nearest (d.coefficient * Nat.pow 10 e * Double.one) 1
  | .negSucc e => Double.nearest (d.coefficient * Double.one) (Nat.pow 10 (e + 1))

/-- Decimal digits, filled up with zeros in front to at least `width` of them. -/
def padded (width n : Nat) : List Char :=
  let digits := Nat.toDigits 10 n
  List.replicate (width - digits.length) '0' ++ digits

/-- A decimal as plain digits with at most one point, and a digit on each side of it. -/
def plain (d : Decimal) : List Char :=
  match d.exponent with
  | .ofNat e => Nat.toDigits 10 (d.coefficient * Nat.pow 10 e)
  | .negSucc e =>
    let unit := Nat.pow 10 (e + 1)
    Nat.toDigits 10 (d.coefficient / unit) ++ '.' :: padded (e + 1) (d.coefficient % unit)

theorem pattern_ofNat (c e : Nat) :
    pattern ⟨c, (e : Int)⟩ = Double.nearest (c * Nat.pow 10 e * Double.one) 1 := rfl

theorem pattern_neg (c e : Nat) :
    pattern ⟨c, -(e : Int)⟩ = Double.nearest (c * Double.one) (Nat.pow 10 e) := by
  cases e with
  | zero =>
    show pattern ⟨c, ((0 : Nat) : Int)⟩ = _
    simp only [pattern_ofNat, Nat.pow_eq, Nat.pow_zero, Nat.mul_one]
  | succ e => rfl

theorem pattern_zero (e : Nat) : pattern ⟨0, (e : Int)⟩ = 0 := by
  rw [pattern_ofNat, Nat.zero_mul, Nat.zero_mul]
  exact Double.nearest_of_lt (by decide)

/-- Writing out the zeros of a power of ten does not change the nearest double. -/
theorem pattern_shift (c e : Nat) :
    pattern ⟨c * Nat.pow 10 e, ((0 : Nat) : Int)⟩ = pattern ⟨c, (e : Int)⟩ := by
  simp only [pattern_ofNat, Nat.pow_eq, Nat.pow_zero, Nat.mul_one]

end Decimal
end PocketCalc
