import PocketCalc.Number.Decimal

/-!
# The shortest decimal of a double

Among the decimals that read back as a given double, `shortest` takes one with the
fewest digits, and of these the nearest to the double.  A grid of decimals holds all
multiples of one power of ten; if any of its points reads back, one of the two
neighbours of the double does, so only these are tried, from the coarsest grid to
finer ones.  Seventeen digits always suffice; the exact decimal stands behind the
search so that the result reads back by construction.
-/

namespace PocketCalc
namespace Decimal

/-- The power of ten `k` with `10 ^ (k - 1) ≤ v < 10 ^ k`, for a magnitude `v` of at
least one unit, which is more than `10 ^ -324`. -/
def magnitude (u : Nat) : Int :=
  (Nat.toDigits 10 (u * Nat.pow 10 324 / Double.one)).length - 324

/-- A magnitude in steps of `10 ^ g`, as numerator and denominator. -/
def steps (u : Nat) (g : Int) : Nat × Nat :=
  if 0 ≤ g then (u, Double.one * Nat.pow 10 g.toNat) else (u * Nat.pow 10 (-g).toNat, Double.one)

/-- The point of the grid of step `10 ^ g` that reads back as the pattern `p`: the
nearer of its two neighbours, and the upper one if they are equally near. -/
def onGrid? (p : Nat) (g : Int) : Option Decimal :=
  let (num, den) := steps (Double.units p) g
  let below : Decimal := ⟨num / den, g⟩
  let above : Decimal := ⟨num / den + 1, g⟩
  if below.pattern = p ∧ (2 * (num % den) < den ∨ above.pattern ≠ p) then some below
  else if above.pattern = p then some above
  else none

/-- The first hit on at most `tries` grids, from step `10 ^ g` downwards. -/
def search (p : Nat) (g : Int) : Nat → Option Decimal
  | 0 => none
  | tries + 1 => (onGrid? p g).or (search p (g - 1) tries)

/-- The decimal that equals the magnitude of a pattern. -/
def exact (p : Nat) : Decimal := ⟨Double.units p * Nat.pow 5 Double.places, -Double.places⟩

/-- The shortest decimal that reads back as the finite pattern `p`. -/
def shortest (p : Nat) : Decimal :=
  if p = 0 then ⟨0, 0⟩
  else (search p (magnitude (Double.units p)) 18).getD (exact p)

/-! ## What is found reads back -/

theorem pattern_of_onGrid? {p : Nat} {g : Int} {d : Decimal} (h : onGrid? p g = some d) :
    d.pattern = p := by
  simp only [onGrid?] at h
  split at h
  · next hb => exact Option.some.inj h ▸ hb.1
  · split at h
    · next ha => exact Option.some.inj h ▸ ha
    · cases h

theorem pattern_of_search {p : Nat} {tries : Nat} {g : Int} {d : Decimal}
    (h : search p g tries = some d) : d.pattern = p := by
  induction tries generalizing g with
  | zero => cases h
  | succ tries ih =>
    rw [search] at h
    cases hg : onGrid? p g with
    | none =>
      rw [hg] at h
      exact ih h
    | some e =>
      rw [hg] at h
      exact Option.some.inj h ▸ pattern_of_onGrid? hg

theorem pattern_exact {p : Nat} (h : p < Double.infinity) : (exact p).pattern = p := by
  have hscale := Double.nearest_mul_mul (Double.units p) 1
    (Nat.pow_pos (n := Double.places) (show 0 < 10 by omega))
  rw [Nat.one_mul] at hscale
  simp only [exact, pattern_neg, Double.one, Nat.pow_eq]
  rw [Nat.mul_assoc, ← Nat.mul_pow, hscale]
  exact Double.nearest_units h

/-- The shortest decimal of a finite double reads back as that double. -/
theorem pattern_shortest {p : Nat} (h : p < Double.infinity) : (shortest p).pattern = p := by
  unfold shortest
  split
  · next h0 => rw [h0]; exact pattern_zero 0
  · cases hs : search p (magnitude (Double.units p)) 18 with
    | none => exact pattern_exact h
    | some d => exact pattern_of_search hs

end Decimal
end PocketCalc
