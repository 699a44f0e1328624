import PocketCalc.Number.Double

/-!
# Rounding to decimal places

A number is scaled by a power of ten, rounded to a whole number, halves away from
zero, and scaled back.  Each of the two scalings rounds to the nearest double.
-/

namespace PocketCalc
namespace Number

/-- Decimal places kept unless a calculator is set up otherwise. -/
def defaultPlaces : Nat := 8

/-- The most decimal places a double can carry. -/
def maxPlaces : Nat := 15

/-- Rounds a number to at most `maxPlaces` decimal places.  From `2 ^ 53` on, a scaled
number is whole already or is no number at all, and the number is returned as it is.
The result is never a negative zero. -/
def round (x : Float) (places : Nat) : Float :=
  let scale := Nat.pow 10 (min places maxPlaces)
  let scaled := Double.units (Double.nearest (Double.units (Double.pattern x) * scale) 1)
  if scaled < 2 * Double.hiddenBit * Double.one then
    let whole := Double.roundHalfUp scaled Double.one
    if whole = 0 then Double.ofPattern false 0
    else Double.ofPattern (Double.isNegative x) (Double.nearest (whole * Double.one) scale)
  else x

end Number
end PocketCalc
