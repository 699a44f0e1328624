import PocketCalc.Number.Decimal

/-!
# Moments

A moment of universal time, to the billionth of a second, written as in `2024-01-02T03:04:05Z` or
in `2024-01-02T03:04:05.250Z`, and the moments of several things that are done in a row.
-/

namespace PocketCalc

/-- A year whose February has 29 days. -/
def isLeapYear (year : Int) : Bool := year % 4 = 0 && (year % 100 ≠ 0 || year % 400 = 0)

/-- The days of a month; there are none in a month that does not exist. -/
def daysInMonth (year : Int) (month : Nat) : Nat :=
  match month with
  | 2 => if isLeapYear year then 29 else 28
  | 4 | 6 | 9 | 11 => 30
  | 1 | 3 | 5 | 7 | 8 | 10 | 12 => 31
  | _ => 0

/-- A second of a minute, and the billionths of a second since it began. -/
structure Second where
  whole : Nat
  nanos : Nat
deriving DecidableEq

/-- The beginning of a second. -/
instance (n : Nat) : OfNat Second n := ⟨⟨n, 0⟩⟩

/-- A moment, as the fields of its date and time. -/
structure Timestamp where
  year : Int
  month : Nat
  day : Nat
  hour : Nat
  minute : Nat
  second : Second
  /-- The fields name a moment that exists, in a year that there is a calendar for.  Any minute may
  end with a leap second. -/
  valid : ((-262144 < year ∧ year < 262143) ∧ 1 ≤ day ∧ day ≤ daysInMonth year month) ∧
    (hour < 24 ∧ minute < 60) ∧ second.whole ≤ 60 ∧ second.nanos < 1000000000
deriving DecidableEq

namespace Timestamp

/-- The moment with the given fields, if it exists. -/
def ofFields? (year : Int) (month day hour minute : Nat) (second : Second) : Option Timestamp :=
  if h : ((-262144 < year ∧ year < 262143) ∧ 1 ≤ day ∧ day ≤ daysInMonth year month) ∧
      (hour < 24 ∧ minute < 60) ∧ second.whole ≤ 60 ∧ second.nanos < 1000000000 then
    some ⟨year, month, day, hour, minute, second, h⟩
  else none

/-! ## The written form -/

/-- A year of four digits, or a sign and at least as many digits. -/
def yearChars (year : Int) : List Char :=
  let digits := Decimal.padded 4 year.natAbs
  if year < 0 then '-' :: digits else if year < 10000 then digits else '+' :: digits

/-- The part of a second after the point: thousandths, millionths or billionths, as many as it
takes. -/
def fractionChars (nanos : Nat) : List Char :=
  if nanos = 0 then []
  else if nanos % 1000000 = 0 then '.' :: Decimal.padded 3 (nanos / 1000000)
  else if nanos % 1000 = 0 then '.' :: Decimal.padded 6 (nanos / 1000)
  else '.' :: Decimal.padded 9 nanos

/-- The date and the time of a moment. -/
def chars (t : Timestamp) : List Char :=
  yearChars t.year ++ '-' :: Decimal.padded 2 t.month ++ '-' :: Decimal.padded 2 t.day ++
    'T' :: Decimal.padded 2 t.hour ++ ':' :: Decimal.padded 2 t.minute ++
    ':' :: Decimal.padded 2 t.second.whole ++ fractionChars t.second.nanos

/-- The written form of a moment, marked as universal time by a letter. -/
def text (t : Timestamp) : String := String.ofList (t.chars ++ ['Z'])

/-- The written form of a moment with its distance from universal time, which is nothing. -/
def offsetText (t : Timestamp) : String := String.ofList (t.chars ++ "+00:00".toList)

/-! ## Reading -/

/-- Reads digits, at least `least` of them and at most `most`. -/
def digits? (least most : Nat) (cs : List Char) : Option (List Char × List Char) :=
  let digits := (cs.takeWhile Char.isDigit).take most
  if least ≤ digits.length then some (digits, cs.drop digits.length) else none

/-- Reads a year: four digits, or a sign and any number of digits. -/
def year? (cs : List Char) : Option (Int × List Char) :=
  match cs with
  | '-' :: cs => (digits? 1 cs.length cs).map fun (ds, rest) => (-Nat.ofDigitChars 10 ds 0, rest)
  | '+' :: cs => (digits? 1 cs.length cs).map fun (ds, rest) => (Nat.ofDigitChars 10 ds 0, rest)
  | cs => (digits? 4 4 cs).map fun (ds, rest) => (Nat.ofDigitChars 10 ds 0, rest)

/-- Reads the mark in front of a field and the two digits of the field. -/
def field? (mark : Char) : List Char → Option (Nat × List Char)
  | c :: cs =>
    if c = mark then
      (digits? 2 2 cs).map fun (ds, rest) => (Nat.ofDigitChars 10 ds 0, rest)
    else none
  | [] => none

/-- Reads what may follow a second: a point and digits.  Those beyond the billionths do not
count. -/
def nanos? : List Char → Option (Nat × List Char)
  | '.' :: cs =>
    (digits? 1 9 cs).map fun (ds, rest) =>
      (Nat.ofDigitChars 10 ds 0 * Nat.pow 10 (9 - ds.length), rest.dropWhile Char.isDigit)
  | cs => some (0, cs)

/-- Reads the written form of a moment. -/
def ofChars? (cs : List Char) : Option Timestamp := do
  let (year, cs) ← year? cs
  let (month, cs) ← field? '-' cs
  let (day, cs) ← field? '-' cs
  let (hour, cs) ← field? 'T' cs
  let (minute, cs) ← field? ':' cs
  let (second, cs) ← field? ':' cs
  let (nanos, cs) ← nanos? cs
  if cs = ['Z'] then ofFields? year month day hour minute ⟨second, nanos⟩ else none

end Timestamp

/-! ## Moments in a row -/

/-- The moments of things done one after the other, the moment of the first one first. -/
def Moments := Nat → Timestamp

namespace Moments

def first (times : Moments) : Timestamp := times 0

/-- The moments of all that is done after the first thing. -/
def later (times : Moments) : Moments := fun n => times (n + 1)

/-- Everything is done at one moment. -/
def always (now : Timestamp) : Moments := fun _ => now

@[simp] theorem first_always (now : Timestamp) : (always now).first = now := rfl

/-- A moment stands for the row in which everything is done at that moment. -/
instance : Coe Timestamp Moments := ⟨always⟩

end Moments
end PocketCalc
