import PocketCalc.Evaluator

/-!
# Expressions

The syntax tree of an expression, beside the tokens it is typed as.  A tree has its
tokens, its nesting and its value, and none of the three is computed by reading.  The
well-formed trees are those whose tokens need no parentheses but the groups in the tree.
-/

namespace PocketCalc

/-- A syntax tree. -/
inductive Expression where
  | number (text : String)
  | group (inner : Expression)
  | percent (operand : Expression)
  | binary (op : Operator) (left right : Expression)
deriving DecidableEq

namespace Expression

/-- The tokens of an expression, in order. -/
def tokens : Expression → List Token
  | number text => [.number text]
  | group inner => .leftParen :: inner.tokens ++ [.rightParen]
  | percent operand => operand.tokens ++ [.percent]
  | binary op left right => left.tokens ++ .operator op :: right.tokens

/-- How tightly the outermost part of an expression holds together: an operator by its
precedence, and all else more tightly than every operator. -/
def level : Expression → Nat
  | binary op _ _ => op.precedence
  | number _ | group _ | percent _ => 3

/-- Every operand holds together more tightly than the operator or percent sign beside
it; to the left of an operator, as tightly is enough. -/
def WellFormed : Expression → Prop
  | number _ => True
  | group inner => inner.WellFormed
  | percent operand => operand.WellFormed ∧ 3 ≤ operand.level
  | binary op left right =>
    (left.WellFormed ∧ op.precedence ≤ left.level) ∧ right.WellFormed ∧ op.precedence < right.level

/-- The deepest nesting of groups. -/
def nesting : Expression → Nat
  | number _ => 0
  | group inner => inner.nesting + 1
  | percent operand => operand.nesting
  | binary _ left right => max left.nesting right.nesting

/-- Every number in an expression can be read. -/
def Readable : Expression → Prop
  | number text => (Literal.read? text.toList).isSome
  | group inner => inner.Readable
  | percent operand => operand.Readable
  | binary _ left right => left.Readable ∧ right.Readable

/-- The value of an expression under a limit on magnitudes.  The left operand comes
first, and the first fault decides the error. -/
def value (limit : Float) : Expression → Except EvalError Float
  | number text => Evaluator.literal limit text
  | group inner => inner.value limit
  | percent operand => do
    let x ← operand.value limit
    Evaluator.check limit (x / 100)
  | binary op left right => do
    let x ← left.value limit
    let y ← right.value limit
    Evaluator.apply limit op x y

/-- An expression has at least one token. -/
theorem tokens_ne_nil (e : Expression) : e.tokens ≠ [] := by
  cases e <;> simp [tokens]

end Expression
end PocketCalc
