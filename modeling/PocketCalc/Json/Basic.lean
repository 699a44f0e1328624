import PocketCalc.Number.Shortest

/-!
# JSON values

JSON values and their compact text.  Whole numbers and other numbers are kept apart, as
some types are written with the one and some with the other.  An object keeps its fields
in order.
-/

namespace PocketCalc

/-- A JSON value. -/
inductive Json where
  | null
  | bool (b : Bool)
  | integer (n : Int)
  | real (x : Float)
  | string (s : String)
  | array (items : List Json)
  | object (fields : List (String × Json))

namespace Json

/-! ## Numbers -/

/-- The digits `digits`, of a decimal with exponent `exponent`, with a point or an exponent
of ten.  Positions from `10 ^ -5` to `10 ^ 16` are written out. -/
def layOut (digits : List Char) (exponent : Int) : List Char :=
  let point := digits.length + exponent
  if 0 ≤ exponent ∧ point ≤ 16 then
    digits ++ List.replicate exponent.toNat '0' ++ ['.', '0']
  else if 0 < point ∧ point ≤ 16 then
    digits.take point.toNat ++ '.' :: digits.drop point.toNat
  else if -5 < point ∧ point ≤ 0 then
    '0' :: '.' :: List.replicate (-point).toNat '0' ++ digits
  else
    let places := digits.drop 1
    digits.take 1 ++ (if places.isEmpty then [] else '.' :: places) ++
      'e' :: (toString (point - 1)).toList

/-- A number that is not marked as whole: the digits of its shortest decimal, and at least
one digit after the point.  There is no text but `null` for an infinite value or none. -/
def realChars (x : Float) : List Char :=
  let p := Double.pattern x
  if Double.infinity ≤ p then "null".toList
  else
    let d := Decimal.shortest p
    (if Double.isNegative x then ['-'] else []) ++
      layOut (Nat.toDigits 10 d.coefficient) d.exponent

/-! ## Strings -/

/-- A character inside quotes.  Quotes, backslashes and control characters are escaped. -/
def escape (c : Char) : List Char :=
  if c = '"' ∨ c = '\\' then ['\\', c]
  else if c = '\n' then ['\\', 'n']
  else if c = '\r' then ['\\', 'r']
  else if c = '\t' then ['\\', 't']
  else if c.toNat = 0x08 then ['\\', 'b']
  else if c.toNat = 0x0C then ['\\', 'f']
  else if c.toNat < 0x20 then
    ['\\', 'u', '0', '0', Nat.digitChar (c.toNat / 16), Nat.digitChar (c.toNat % 16)]
  else [c]

/-- A string between quotes. -/
def quoted (s : String) : List Char := '"' :: s.toList.flatMap escape ++ ['"']

/-! ## Values -/

mutual
/-- The text of a value, without blanks. -/
def chars : Json → List Char
  | null => "null".toList
  | bool b => (if b then "true" else "false").toList
  | integer n => (toString n).toList
  | real x => realChars x
  | string s => quoted s
  | array items => '[' :: itemChars items ++ [']']
  | object fields => '\x7b' :: fieldChars fields ++ ['\x7d']

/-- The items of an array with commas between them. -/
def itemChars : List Json → List Char
  | [] => []
  | [j] => chars j
  | j :: js => chars j ++ ',' :: itemChars js

/-- The fields of an object with commas between them. -/
def fieldChars : List (String × Json) → List Char
  | [] => []
  | [(name, j)] => quoted name ++ ':' :: chars j
  | (name, j) :: fields => quoted name ++ ':' :: chars j ++ ',' :: fieldChars fields
end

/-- The text of a value, without blanks. -/
def text (j : Json) : String := String.ofList j.chars

end Json
end PocketCalc
