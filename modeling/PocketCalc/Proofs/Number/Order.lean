import PocketCalc.Number.Double

/-!
# The order of doubles

A double has a place among the others, by its side of zero, its exponent and its significand, and
two doubles are compared by their places (`compare_eq`).  A value that is not a number has no place
and is not comparable to anything, so the order is not reflexive, but it is transitive
(`le_trans`).
-/

namespace PocketCalc
namespace Double

open Float.Model Float.Model.UnpackedFloat

/-- The place of a double, if it is a number: its side of zero, and there its exponent and then its
significand, which count downwards below zero. -/
def place? : UnpackedFloat → Option (Int × Int × Int)
  | .notANumber => none
  | .infinity s => some (s.apply 2, 0, 0)
  | .zero _ => some (0, 0, 0)
  | .finite s m e _ => some (s.apply 1, s.apply e, s.apply m)

/-- Places are compared component by component. -/
def comparePlaces : Int × Int × Int → Int × Int × Int → Ordering :=
  compareLex (compareOn Prod.fst) (compareLex (compareOn fun p => p.2.1) (compareOn fun p => p.2.2))

theorem comparePlaces_trans {p q r : Int × Int × Int} (hpq : (comparePlaces p q).isLE)
    (hqr : (comparePlaces q r).isLE) : (comparePlaces p r).isLE := by
  unfold comparePlaces at hpq hqr ⊢
  exact Std.TransCmp.isLE_trans hpq hqr

theorem compare_neg (a b : Int) : compare (-a) (-b) = compare b a := by
  simp only [Int.compare_eq_ite_lt, Int.neg_lt_neg_iff]

theorem compare_natCast (m n : Nat) : compare (m : Int) n = compare m n := by
  simp only [Int.compare_eq_ite_lt, Nat.compare_eq_ite_lt, Int.ofNat_lt]

theorem compare_finite (s t : Sign) {m n : Nat} (d e : Int) (hm : 0 < m) (hn : 0 < n) :
    (UnpackedFloat.finite s m d hm).compare (.finite t n e hn) =
      some (comparePlaces (s.apply 1, s.apply d, s.apply m) (t.apply 1, t.apply e, t.apply n)) := by
  cases s with
  | positive =>
    cases t with
    | positive =>
      show some ((compare d e).then (compare m n)) =
        some ((compare d e).then (compare (m : Int) n))
      rw [compare_natCast]
    | negative => rfl
  | negative =>
    cases t with
    | positive => rfl
    | negative =>
      show some ((compare d e).then (compare m n)).swap =
        some ((compare (-d) (-e)).then (compare (-(m : Int)) (-n)))
      rw [compare_neg, compare_neg, compare_natCast, Ordering.swap_then, Int.compare_swap,
        Nat.compare_swap]

/-- Two doubles are compared by their places. -/
theorem compare_eq (x y : UnpackedFloat) :
    x.compare y = (place? x).bind fun p => (place? y).map (comparePlaces p) := by
  cases x with
  | notANumber => rfl
  | infinity s =>
    cases y with
    | notANumber => rfl
    | infinity t | finite t => cases s <;> cases t <;> rfl
    | zero => cases s <;> rfl
  | zero =>
    cases y with
    | notANumber | zero => rfl
    | infinity t | finite t => cases t <;> rfl
  | finite s =>
    cases y with
    | notANumber | zero => cases s <;> rfl
    | infinity t => cases s <;> cases t <;> rfl
    | finite t => exact compare_finite s t _ _ _ _

theorem le_iff {x y : Float} : x ≤ y ↔ ∃ p q, place? x.toModel.unpack = some p ∧
    place? y.toModel.unpack = some q ∧ (comparePlaces p q).isLE := by
  show decide ((x.toModel.unpack.compare y.toModel.unpack).any (·.isLE) = true) = true ↔ _
  rw [decide_eq_true_iff, compare_eq, Option.any_eq_true]
  cases place? x.toModel.unpack <;> cases place? y.toModel.unpack <;> simp

theorem le_trans {x y z : Float} (hxy : x ≤ y) (hyz : y ≤ z) : x ≤ z := by
  obtain ⟨p, q, hp, hq, hpq⟩ := le_iff.1 hxy
  obtain ⟨q', r, hq', hr, hqr⟩ := le_iff.1 hyz
  obtain rfl : q = q' := Option.some.inj (hq.symm.trans hq')
  exact le_iff.2 ⟨p, r, hp, hr, comparePlaces_trans hpq hqr⟩

end Double
end PocketCalc
