/-!
# Tokens

The elements of the expression being typed.  A number keeps the text that was typed,
with a trailing point if there is one, until the expression is evaluated.
-/

namespace PocketCalc

/-- The four binary operators. -/
inductive Operator where
  | add
  | sub
  | mul
  | div
deriving DecidableEq

namespace Operator

/-- The character shown on the keypad and in the expression. -/
def glyph : Operator → Char
  | add => '+'
  | sub => '-'
  | mul => '×'
  | div => '÷'

/-- How tightly an operator binds: the greater, the tighter. -/
def precedence : Operator → Nat
  | add | sub => 1
  | mul | div => 2

/-- The operator of a glyph or of one of its other spellings. -/
def ofGlyph? : Char → Option Operator
  | '+' => some add
  | '-' | '−' => some sub
  | '×' | '*' | 'x' | 'X' => some mul
  | '÷' | '/' => some div
  | _ => none

theorem ofGlyph?_glyph (op : Operator) : ofGlyph? op.glyph = some op := by
  cases op <;> rfl

end Operator

/-- An element of an expression. -/
inductive Token where
  /-- A number, as typed. -/
  | number (text : String)
  | operator (op : Operator)
  | leftParen
  | rightParen
  /-- Divides the operand before it by a hundred. -/
  | percent
deriving DecidableEq

namespace Token

/-- The characters of a token in the expression. -/
def chars : Token → List Char
  | number text => text.toList
  | operator op => [op.glyph]
  | leftParen => ['(']
  | rightParen => [')']
  | percent => ['%']

/-- A token as it is shown in the expression. -/
def text (t : Token) : String := String.ofList t.chars

def isOperator : Token → Bool
  | operator _ => true
  | _ => false

def isParen : Token → Bool
  | leftParen | rightParen => true
  | _ => false

/-- Whether an operand can end here, so that an operator may follow. -/
def endsOperand : Token → Bool
  | number _ | rightParen | percent => true
  | operator _ | leftParen => false

end Token
end PocketCalc
