import PocketCalc.Number.Shortest

/-!
# Numbers as text

A number is written with the digits of its shortest decimal, as plain digits and
never with an exponent.
-/

namespace PocketCalc
namespace Number

/-- The plain text of a number, with the sign of a negative zero kept. -/
def plainText (x : Float) : String :=
  let p := Double.pattern x
  if Double.infinity < p then "NaN"
  else
    let sign := if Double.isNegative x then ['-'] else []
    let digits := if p = Double.infinity then "inf".toList else (Decimal.shortest p).plain
    String.ofList (sign ++ digits)

/-- The text of a number on the display, where zero has no sign. -/
def format (x : Float) : String := if Double.pattern x = 0 then "0" else plainText x

end Number
end PocketCalc
