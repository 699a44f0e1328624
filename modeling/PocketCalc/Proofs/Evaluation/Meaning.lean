import Mathlib.Control.Monad.Basic
import PocketCalc.Proofs.Evaluation.Reading

/-!
# The meaning of a sentence

`Evaluates` gives the rules by which a tree is worth a value or comes to an error: operands
from left to right, a check of every literal, percentage and operator result, and the first
fault decides.  The value of a tree is what these rules give it (`evaluates_iff`), and the
value of a sequence of tokens is what they give its tree (`evaluate_sentence`).  A sequence
that is no sentence has no value.
-/

namespace PocketCalc

/-- The check of a new value: it has to be finite and its magnitude within the limit. -/
inductive Checked (limit x : Float) : Except EvalError Float → Prop
  | within (h : x.isFinite ∧ x.abs ≤ limit) : Checked limit x (.ok x)
  | beyond (h : ¬ (x.isFinite ∧ x.abs ≤ limit)) : Checked limit x (.error .overflow)

/-- `Evaluates limit e v`: the tree `e` comes to the value or error `v`. -/
inductive Evaluates (limit : Float) : Expression → Except EvalError Float → Prop
  | number {text : String} {x : Float} {v : Except EvalError Float}
    (hread : Literal.read? text.toList = some x) (hv : Checked limit x v) :
    Evaluates limit (.number text) v
  | unreadable {text : String} (hread : Literal.read? text.toList = none) :
    Evaluates limit (.number text) (.error .malformedExpression)
  | group {e : Expression} {v : Except EvalError Float} (he : Evaluates limit e v) :
    Evaluates limit (.group e) v
  | percent {e : Expression} {x : Float} {v : Except EvalError Float}
    (he : Evaluates limit e (.ok x)) (hv : Checked limit (x / 100) v) :
    Evaluates limit (.percent e) v
  | percentFault {e : Expression} {f : EvalError} (he : Evaluates limit e (.error f)) :
    Evaluates limit (.percent e) (.error f)
  | leftFault {op : Operator} {l r : Expression} {f : EvalError}
    (hl : Evaluates limit l (.error f)) : Evaluates limit (.binary op l r) (.error f)
  | rightFault {op : Operator} {l r : Expression} {x : Float} {f : EvalError}
    (hl : Evaluates limit l (.ok x)) (hr : Evaluates limit r (.error f)) :
    Evaluates limit (.binary op l r) (.error f)
  | add {l r : Expression} {x y : Float} {v : Except EvalError Float}
    (hl : Evaluates limit l (.ok x)) (hr : Evaluates limit r (.ok y))
    (hv : Checked limit (x + y) v) : Evaluates limit (.binary .add l r) v
  | sub {l r : Expression} {x y : Float} {v : Except EvalError Float}
    (hl : Evaluates limit l (.ok x)) (hr : Evaluates limit r (.ok y))
    (hv : Checked limit (x - y) v) : Evaluates limit (.binary .sub l r) v
  | mul {l r : Expression} {x y : Float} {v : Except EvalError Float}
    (hl : Evaluates limit l (.ok x)) (hr : Evaluates limit r (.ok y))
    (hv : Checked limit (x * y) v) : Evaluates limit (.binary .mul l r) v
  | div {l r : Expression} {x y : Float} {v : Except EvalError Float}
    (hl : Evaluates limit l (.ok x)) (hr : Evaluates limit r (.ok y)) (hy : ¬ y == 0)
    (hv : Checked limit (x / y) v) : Evaluates limit (.binary .div l r) v
  | divisionByZero {l r : Expression} {x y : Float} (hl : Evaluates limit l (.ok x))
    (hr : Evaluates limit r (.ok y)) (hy : y == 0) :
    Evaluates limit (.binary .div l r) (.error .divisionByZero)

theorem checked_iff {limit x : Float} {v : Except EvalError Float} :
    Checked limit x v ↔ Evaluator.check limit x = v := by
  unfold Evaluator.check
  constructor
  · rintro (h | h)
    · rw [if_pos h]
    · rw [if_neg h]
  · rintro rfl
    split
    · next h => exact .within h
    · next h => exact .beyond h

/-- The rules give a tree no more than its value. -/
theorem Evaluates.value_eq {limit : Float} {e : Expression} {v : Except EvalError Float}
    (h : Evaluates limit e v) : e.value limit = v := by
  induction h with
  | number hread hv => rw [Expression.value, Evaluator.literal, hread]; exact checked_iff.1 hv
  | unreadable hread => rw [Expression.value, Evaluator.literal, hread]
  | group _ ih => exact ih
  | percent _ hv ih => rw [Expression.value, ih]; exact checked_iff.1 hv
  | percentFault _ ih => rw [Expression.value, ih]; rfl
  | leftFault _ ih => rw [Expression.value, ih]; rfl
  | rightFault _ _ ihl ihr => rw [Expression.value, ihl, ihr]; rfl
  | add _ _ hv ihl ihr | sub _ _ hv ihl ihr | mul _ _ hv ihl ihr =>
    rw [Expression.value, ihl, ihr]
    exact checked_iff.1 hv
  | div _ _ hy hv ihl ihr =>
    rw [Expression.value, ihl, ihr]
    exact (if_neg hy).trans (checked_iff.1 hv)
  | divisionByZero _ _ hy ihl ihr =>
    rw [Expression.value, ihl, ihr]
    exact if_pos hy

/-- An operator on two values, by the rules. -/
theorem evaluates_apply {limit : Float} {l r : Expression} {x y : Float}
    (hl : Evaluates limit l (.ok x)) (hr : Evaluates limit r (.ok y)) (op : Operator) :
    Evaluates limit (.binary op l r) (Evaluator.apply limit op x y) := by
  cases op with
  | add => exact .add hl hr (checked_iff.2 rfl)
  | sub => exact .sub hl hr (checked_iff.2 rfl)
  | mul => exact .mul hl hr (checked_iff.2 rfl)
  | div =>
    unfold Evaluator.apply
    by_cases hy : y == 0
    · rw [if_pos hy]; exact .divisionByZero hl hr hy
    · rw [if_neg hy]; exact .div hl hr hy (checked_iff.2 rfl)

/-- The rules give every tree its value. -/
theorem evaluates_value (limit : Float) (e : Expression) : Evaluates limit e (e.value limit) := by
  induction e with
  | number text =>
    rw [Expression.value, Evaluator.literal]
    split
    · next x hread => exact .number hread (checked_iff.2 rfl)
    · next hread => exact .unreadable hread
  | group inner ih => exact .group ih
  | percent operand ih =>
    rw [Expression.value]
    cases hx : operand.value limit with
    | error f => rw [hx] at ih; exact .percentFault ih
    | ok x => rw [hx] at ih; exact .percent ih (checked_iff.2 rfl)
  | binary op l r ihl ihr =>
    rw [Expression.value]
    cases hx : l.value limit with
    | error f => rw [hx] at ihl; exact .leftFault ihl
    | ok x =>
      rw [hx] at ihl
      cases hy : r.value limit with
      | error f => rw [hy] at ihr; exact .rightFault ihl ihr
      | ok y => rw [hy] at ihr; exact evaluates_apply ihl ihr op

theorem evaluates_iff {limit : Float} {e : Expression} {v : Except EvalError Float} :
    Evaluates limit e v ↔ e.value limit = v :=
  ⟨Evaluates.value_eq, fun h => h ▸ evaluates_value limit e⟩

/-! ## Values keep to the limit -/

theorem bounded_of_check {limit x y : Float} (h : Evaluator.check limit x = .ok y) :
    y.isFinite ∧ y.abs ≤ limit := by
  cases checked_iff.2 h with
  | within hx => exact hx

theorem bounded_of_apply {limit x y z : Float} {op : Operator}
    (h : Evaluator.apply limit op x y = .ok z) : z.isFinite ∧ z.abs ≤ limit := by
  cases op with
  | add | sub | mul => exact bounded_of_check h
  | div =>
    simp only [Evaluator.apply] at h
    split at h
    · cases h
    · exact bounded_of_check h

theorem Expression.bounded_of_value {limit x : Float} {e : Expression} (h : e.value limit = .ok x) :
    x.isFinite ∧ x.abs ≤ limit := by
  induction e generalizing x with
  | number text =>
    rw [Expression.value, Evaluator.literal] at h
    split at h
    · exact bounded_of_check h
    · cases h
  | group inner ih => exact ih h
  | percent operand =>
    obtain ⟨y, -, hy⟩ := bind_eq_ok.1 h
    exact bounded_of_check hy
  | binary op l r =>
    obtain ⟨y, -, hy⟩ := bind_eq_ok.1 h
    obtain ⟨z, -, hz⟩ := bind_eq_ok.1 hy
    exact bounded_of_apply hz

/-- Every value is finite and within the limit. -/
theorem bounded_of_evaluate {limit x : Float} {ts : List Token}
    (h : Evaluator.evaluate limit ts = .ok x) : x.isFinite ∧ x.abs ≤ limit := by
  obtain ⟨e, -, he⟩ := Evaluator.exists_sentence_of_evaluate h
  exact Expression.bounded_of_value he

/-! ## The value of a sequence of tokens -/

/-- A sentence has one tree and comes to what the rules give this tree, value or error.
What is no sentence has no value. -/
theorem evaluate_sentence (limit : Float) (ts : List Token) :
    (∀ e, Sentence ts e → (∀ f, Derives .expression ts f → f = e) ∧
      ∀ v, Evaluator.evaluate limit ts = v ↔ Evaluates limit e v) ∧
    ((¬ ∃ e, Sentence ts e) → ∀ x, Evaluator.evaluate limit ts ≠ .ok x) := by
  refine ⟨fun e he => ⟨fun f hf => hf.unique he.derives, fun v => ?_⟩, fun hno x hx => ?_⟩
  · obtain ⟨hw, rfl⟩ := derives_iff.1 he.derives
    rw [Evaluator.evaluate_tokens limit hw he.nesting_le, evaluates_iff]
  · obtain ⟨e, he, -⟩ := Evaluator.exists_sentence_of_evaluate hx
    exact hno ⟨e, he⟩

/-- `(1+2)×50%` is one and a half, and `1)` has no value. -/
theorem evaluate_sentence_group_times_percent :
    (∃ e, Sentence [.leftParen, .number "1", .operator .add, .number "2", .rightParen,
        .operator .mul, .number "50", .percent] e ∧
      Evaluator.evaluate Evaluator.noLimit [.leftParen, .number "1", .operator .add, .number "2",
        .rightParen, .operator .mul, .number "50", .percent] = .ok 1.5) ∧
    ∀ x, Evaluator.evaluate Evaluator.noLimit [.number "1", .rightParen] ≠ .ok x := by
  have hsum : Derives .expression [.number "1", .operator .add, .number "2"]
      (.binary .add (.number "1") (.number "2")) :=
    .sum (Or.inl rfl) (Derives.primary (.number "1")).loosen (.factor (.primary (.number "2")))
  have hproduct := Derives.term (.product (Or.inl rfl) (.factor (.primary (.group hsum)))
    (.percent (.primary (.number "50"))))
  have h1 : (Literal.read? "1".toList).isSome := by decide +kernel
  have h2 : (Literal.read? "2".toList).isSome := by decide +kernel
  have h50 : (Literal.read? "50".toList).isSome := by decide +kernel
  have hsentence := Sentence.mk hproduct (by decide) ⟨⟨h1, h2⟩, h50⟩
  refine ⟨⟨_, hsentence, ?_⟩, ?_⟩
  · exact (((evaluate_sentence _ _).1 _ hsentence).2 _).2 (evaluates_iff.2 (by decide +kernel))
  · refine (evaluate_sentence _ _).2 ?_
    rintro ⟨e, he⟩
    have hcount := e.count_leftParen_tokens
    rw [he.derives.wellFormed.1] at hcount
    exact absurd hcount (by decide)

end PocketCalc
