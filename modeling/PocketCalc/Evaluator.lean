import PocketCalc.Number.Literal
import PocketCalc.Token

/-!
# Evaluation

The tokens of an expression are read from left to right and evaluated as they are read.
From the loosest binding to the tightest,

    expression := term (('+' | '-') term)*
    term       := factor (('×' | '÷') factor)*
    factor     := primary '%'*
    primary    := number | '(' expression ')'

Operators of equal precedence associate to the left.  Every literal, percentage and
operator result has to be finite and within a limit.  The first fault met decides the
error.  Groups nest at most `maxNesting` deep.

A reader of one kind of phrase is a function on the tokens that are left.  Its result
carries the bound on what remains that lets a chain of operands recurse, and readers
for deeper groups are built from the number of groups that may still be opened.
-/

namespace PocketCalc

/-- Why an expression has no value. -/
inductive EvalError where
  | divisionByZero
  | malformedExpression
  | overflow
deriving DecidableEq

namespace EvalError

/-- The text shown in place of a result. -/
def message : EvalError → String
  | divisionByZero => "Division by zero"
  | malformedExpression => "Invalid Input"
  | overflow => "Invalid Operation"

end EvalError

namespace Evaluator

/-- The deepest nesting of groups. -/
def maxNesting : Nat := 256

/-- The limit that only values beyond the finite doubles exceed. -/
def noLimit : Float := Double.ofPattern false (Double.infinity - 1)

/-- Accepts a finite value of magnitude at most `limit`. -/
def check (limit x : Float) : Except EvalError Float :=
  if x.isFinite ∧ x.abs ≤ limit then .ok x else .error .overflow

/-- The value of a number token. -/
def literal (limit : Float) (text : String) : Except EvalError Float :=
  match Literal.read? text.toList with
  | some x => check limit x
  | none => .error .malformedExpression

/-- The value of an operator on two operands.  Either zero is refused as a divisor. -/
def apply (limit : Float) (op : Operator) (x y : Float) : Except EvalError Float :=
  match op with
  | .add => check limit (x + y)
  | .sub => check limit (x - y)
  | .mul => check limit (x * y)
  | .div => if y == 0 then .error .divisionByZero else check limit (x / y)

/-! ## Readers -/

/-- A value read from the front of `ts`, and the tokens after it. -/
structure Reading (ts : List Token) where
  value : Float
  rest : List Token
  length_le : rest.length ≤ ts.length

namespace Reading

/-- The reading of nothing. -/
def stay (x : Float) (ts : List Token) : Reading ts := ⟨x, ts, Nat.le_refl _⟩

/-- A reading that goes on where another one ended. -/
def after {ts us : List Token} (h : us.length ≤ ts.length) (r : Reading us) : Reading ts :=
  ⟨r.value, r.rest, Nat.le_trans r.length_le h⟩

end Reading

/-- Reads a phrase at the front of the tokens. -/
abbrev Reader := (ts : List Token) → Except EvalError (Reading ts)

/-- The reader that accepts nothing. -/
def refuse : Reader := fun _ => .error .malformedExpression

/-- Reads a number, or a group whose inside is read by `group`. -/
def primary (limit : Float) (group : Reader) : Reader
  | .number text :: rest => do
    let x ← literal limit text
    return ⟨x, rest, Nat.le_succ _⟩
  | .leftParen :: rest => do
    let r ← group rest
    match h : r.rest with
    | .rightParen :: rest' =>
      return ⟨r.value, rest', Nat.le_of_succ_le (Nat.le_succ_of_le (by simpa [h] using r.length_le))⟩
    | _ => .error .malformedExpression
  | _ => .error .malformedExpression

/-- Reads the percent signs after an operand of value `x`. -/
def percents (limit x : Float) : Reader
  | .percent :: rest => do
    let x ← check limit (x / 100)
    let r ← percents limit x rest
    return r.after (Nat.le_succ _)
  | ts => return .stay x ts

/-- Reads a primary and the percent signs after it. -/
def factor (limit : Float) (group : Reader) : Reader := fun ts => do
  let r ← primary limit group ts
  let s ← percents limit r.value r.rest
  return s.after r.length_le

/-- Reads the operators of precedence `level` after an operand of value `x`, each with
its right operand, and combines them from left to right. -/
def chain (limit : Float) (level : Nat) (operand : Reader) (x : Float) : Reader
  | .operator op :: rest =>
    if op.precedence = level then do
      let r ← operand rest
      let x ← apply limit op x r.value
      let s ← chain limit level operand x r.rest
      return s.after (Nat.le_succ_of_le r.length_le)
    else return .stay x (.operator op :: rest)
  | ts => return .stay x ts
termination_by ts => ts.length
decreasing_by exact Nat.lt_succ_of_le r.length_le

/-- Reads operands joined by operators of precedence `level`. -/
def binary (limit : Float) (level : Nat) (operand : Reader) : Reader := fun ts => do
  let r ← operand ts
  let s ← chain limit level operand r.value r.rest
  return s.after r.length_le

/-- Reads an expression whose groups are read by `group`. -/
def sums (limit : Float) (group : Reader) : Reader :=
  binary limit 1 (binary limit 2 (factor limit group))

/-- Reads an expression with at most `room` groups inside one another. -/
def expression (limit : Float) : Nat → Reader
  | 0 => sums limit refuse
  | room + 1 => sums limit (expression limit room)

/-- The value of a whole expression under a limit on magnitudes. -/
def evaluate (limit : Float) (ts : List Token) : Except EvalError Float := do
  let r ← expression limit maxNesting ts
  if r.rest.isEmpty then return r.value else .error .malformedExpression

end Evaluator
end PocketCalc
