import PocketCalc.Number.Literal
import PocketCalc.Text.Blank
import PocketCalc.Token

/-!
# Keys

The keys of the keypad and the symbols that stand for them.
-/

namespace PocketCalc

/-- A key.  Digits above nine can be written down but do nothing. -/
inductive Key where
  | digit (n : UInt8)
  | decimalPoint
  | operator (op : Operator)
  /-- The one key for both parentheses. -/
  | paren
  | percent
  | backspace
  | clear
  | equals
  | openHistory
  | closeHistory
  /-- Picks an entry of the history, counted from the oldest. -/
  | selectHistory (index : UInt64)
deriving DecidableEq

/-- Why a symbol stands for no key. -/
inductive KeyError where
  /-- The symbol, without blanks around it, is not known. -/
  | unknown (symbol : String)
deriving DecidableEq

namespace KeyError

def message : KeyError → String
  | unknown symbol => "Unknown key symbol '" ++ symbol ++ "'"

end KeyError

namespace Key

/-- The symbol of a key. -/
def symbol : Key → String
  | digit n => n.toNat.repr
  | decimalPoint => "."
  | operator op => String.singleton op.glyph
  | paren => "()"
  | percent => "%"
  | backspace => "⌫"
  | clear => "C"
  | equals => "="
  | openHistory => "H"
  | closeHistory => "esc"
  | selectHistory index => "H" ++ index.toNat.repr

/-- The character typed by a digit key. -/
def digitChar? : Key → Option Char
  | digit n => if n < 10 then some (Nat.digitChar n.toNat) else none
  | _ => none

/-- The symbols that are looked up as a whole. -/
def named : List (String × Key) :=
  [(".", decimalPoint), ("(", paren), (")", paren), ("()", paren), ("%", percent),
    ("⌫", backspace), ("<", backspace), ("backspace", backspace), ("C", clear), ("c", clear),
    ("=", equals), ("H", openHistory), ("h", openHistory), ("esc", closeHistory),
    ("Escape", closeHistory)]

/-- Reads an index: digits with an optional plus sign, of a value below `2 ^ 64`. -/
def index? (cs : List Char) : Option UInt64 :=
  let digits :=
    match cs with
    | '+' :: rest => rest
    | rest => rest
  let n := Nat.ofDigitChars 10 digits 0
  if Literal.isDigits digits && n < UInt64.size then some (UInt64.ofNat n) else none

/-- The key that a symbol without blanks around it stands for. -/
def ofTrimmed? (cs : List Char) : Option Key :=
  match named.lookup (String.ofList cs) with
  | some key => some key
  | none =>
    match cs with
    | [c] =>
      if c.isDigit then some (digit (UInt8.ofNat (c.toNat - '0'.toNat)))
      else (Operator.ofGlyph? c).map operator
    | 'H' :: index => (index? index).map selectHistory
    | _ => none

/-- The key that a symbol stands for.  Blanks around a symbol do not count. -/
def ofSymbol (symbol : String) : Except KeyError Key :=
  let trimmed := Blank.trim symbol.toList
  match ofTrimmed? trimmed with
  | some key => .ok key
  | none => .error (.unknown (String.ofList trimmed))

end Key
end PocketCalc
