import PocketCalc.Number.Decimal

/-!
# Number literals

A literal is an optional sign before an unsigned literal.  An unsigned literal is one
of the words `inf`, `infinity` and `nan` in any case, or digits with at most one point
and at least one digit, and after them perhaps an exponent.  Nothing else is read:
no blanks, no separators, no digits outside ASCII.  The value is the nearest double.
-/

namespace PocketCalc
namespace Literal

/-- Reads the digits of an exponent.  The exponent stops growing once it has passed
`2 ^ 16`, where the value is infinite or zero already unless the digits before it fill
as many places. -/
def exponentDigits (digits : List Char) : Nat :=
  digits.foldl (fun e c => if e < 0x10000 then 10 * e + (c.toNat - '0'.toNat) else e) 0

def isDigits (cs : List Char) : Bool := !cs.isEmpty && cs.all Char.isDigit

/-- Reads what may follow the digits of a literal: nothing, or an exponent. -/
def exponent? : List Char → Option Int
  | [] => some 0
  | mark :: rest =>
    if mark = 'e' ∨ mark = 'E' then
      match rest with
      | '-' :: digits => if isDigits digits then some (-exponentDigits digits) else none
      | '+' :: digits => if isDigits digits then some (exponentDigits digits) else none
      | digits => if isDigits digits then some (exponentDigits digits) else none
    else none

/-- Splits off the digits after a point, if there is a point. -/
def fraction : List Char → List Char × List Char
  | '.' :: rest => (rest.takeWhile Char.isDigit, rest.dropWhile Char.isDigit)
  | rest => ([], rest)

/-- Reads an unsigned literal made of digits. -/
def decimal? (cs : List Char) : Option Decimal :=
  let whole := cs.takeWhile Char.isDigit
  let (places, rest) := fraction (cs.dropWhile Char.isDigit)
  if whole.isEmpty && places.isEmpty then none
  else (exponent? rest).map fun e =>
    ⟨Nat.ofDigitChars 10 (whole ++ places) 0, e - places.length⟩

def isWord (word : String) (cs : List Char) : Bool := cs.map Char.toLower = word.toList

/-- Reads an unsigned literal and gives it a sign.  A word for a value that is not a
number has no sign. -/
def unsigned? (negative : Bool) (cs : List Char) : Option Float :=
  if isWord "inf" cs || isWord "infinity" cs then
    some (Double.ofPattern negative Double.infinity)
  else if isWord "nan" cs then some Double.nan
  else (decimal? cs).map fun d => Double.ofPattern negative d.pattern

/-- Reads a literal. -/
def read? : List Char → Option Float
  | '-' :: cs => unsigned? true cs
  | '+' :: cs => unsigned? false cs
  | cs => unsigned? false cs

end Literal
end PocketCalc
