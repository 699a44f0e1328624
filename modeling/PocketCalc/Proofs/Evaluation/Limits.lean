import PocketCalc.Proofs.Evaluation.Fault
import PocketCalc.Proofs.Number.Order

/-!
# Evaluation under a tighter limit

The limit is put to literals, percentages and operator results, and to nothing else.  So the
evaluations of the same tokens under two limits go side by side until they meet a value that only
one of the limits allows, and there the evaluation under the tighter one ends in an overflow
(`evaluate_of_tighter_limit`).  This is a relation between two results that binding them in the same
way keeps (`CutShort.bind`), so each reader has it from the readers it is made of.
-/

namespace PocketCalc
namespace Evaluator

/-- Every magnitude that the limit `l` allows is allowed by `m`. -/
def Tighter (l m : Float) : Prop := ∀ x : Float, x.isFinite → x.abs ≤ l → x.abs ≤ m

theorem tighter_of_le {l m : Float} (h : l ≤ m) : Tighter l m := fun _ _ hx => Double.le_trans hx h

/-- The first result is the second one, unless an overflow came before it. -/
inductive CutShort {α : Type} : Except EvalError α → Except EvalError α → Prop
  | same (a : Except EvalError α) : CutShort a a
  | overflow (a : Except EvalError α) : CutShort (.error .overflow) a

theorem CutShort.bind {α β : Type} {a b : Except EvalError α} {f g : α → Except EvalError β}
    (h : CutShort a b) (hfg : ∀ x, CutShort (f x) (g x)) : CutShort (a >>= f) (b >>= g) := by
  cases h with
  | overflow => exact .overflow _
  | same =>
    cases a with
    | error e => exact .same _
    | ok x => exact hfg x

variable {l m : Float} (h : Tighter l m)

section Values
include h

theorem cutShort_check (x : Float) : CutShort (check l x) (check m x) := by
  unfold check
  by_cases hx : x.isFinite ∧ x.abs ≤ l
  · rw [if_pos hx, if_pos ⟨hx.1, h x hx.1 hx.2⟩]
    exact .same _
  · rw [if_neg hx]
    exact .overflow _

theorem cutShort_literal (text : String) : CutShort (literal l text) (literal m text) := by
  unfold literal
  cases Literal.read? text.toList with
  | some x => exact cutShort_check h x
  | none => exact .same _

theorem cutShort_apply (op : Operator) (x y : Float) :
    CutShort (apply l op x y) (apply m op x y) := by
  cases op with
  | add | sub | mul => exact cutShort_check h _
  | div =>
    -- A divisor of zero is refused before the limit is put to the quotient.
    unfold apply
    by_cases hy : y == 0
    · rw [if_pos hy, if_pos hy]
      exact .same _
    · rw [if_neg hy, if_neg hy]
      exact cutShort_check h _

end Values

/-! ## Readers -/

/-- The reader `read` reads what `read'` reads, unless it comes to an overflow before. -/
def Lags (read read' : Reader) : Prop := ∀ ts, CutShort (read ts) (read' ts)

section Readers

variable {group group' operand operand' : Reader}

theorem lags_refuse : Lags refuse refuse := fun _ => .same _

include h

theorem lags_primary (hg : Lags group group') : Lags (primary l group) (primary m group') := by
  intro ts
  match ts with
  | .number text :: _ => exact (cutShort_literal h text).bind fun _ => .same _
  | .leftParen :: rest => exact (hg rest).bind fun _ => .same _
  | [] | .operator _ :: _ | .rightParen :: _ | .percent :: _ => exact .same _

theorem lags_percents (x : Float) : Lags (percents l x) (percents m x) := by
  intro ts
  induction x, ts using percents.induct with
  | case1 x rest ih =>
    exact (cutShort_check h _).bind fun y => (ih y).bind fun _ => .same _
  | case2 x ts hts =>
    rw [percents, percents]
    · exact .same _
    · exact hts
    · exact hts

theorem lags_factor (hg : Lags group group') : Lags (factor l group) (factor m group') := fun ts =>
  (lags_primary h hg ts).bind fun r => (lags_percents h r.value r.rest).bind fun _ => .same _

theorem lags_chain {level : Nat} (ho : Lags operand operand') (x : Float) :
    Lags (chain l level operand x) (chain m level operand' x) := by
  intro ts
  induction x, ts using chain.induct level with
  | case1 x op rest hop ih =>
    rw [chain, chain, if_pos hop, if_pos hop]
    exact (ho rest).bind fun r => (cutShort_apply h op x r.value).bind fun y =>
      (ih r y).bind fun _ => .same _
  | case2 x op rest hop =>
    rw [chain, chain, if_neg hop, if_neg hop]
    exact .same _
  | case3 x ts hts =>
    rw [chain, chain]
    · exact .same _
    · exact hts
    · exact hts

theorem lags_binary {level : Nat} (ho : Lags operand operand') :
    Lags (binary l level operand) (binary m level operand') := fun ts =>
  (ho ts).bind fun r => (lags_chain h ho r.value r.rest).bind fun _ => .same _

theorem lags_sums (hg : Lags group group') : Lags (sums l group) (sums m group') :=
  lags_binary h (lags_binary h (lags_factor h hg))

theorem lags_expression (room : Nat) : Lags (expression l room) (expression m room) := by
  induction room with
  | zero => exact lags_sums h lags_refuse
  | succ room ih => exact lags_sums h ih

theorem cutShort_evaluate (ts : List Token) : CutShort (evaluate l ts) (evaluate m ts) :=
  (lags_expression h maxNesting ts).bind fun _ => .same _

end Readers

/-- Under a tighter limit, and a lower one is tighter, the tokens come to the same value or error,
or to an overflow, and this only if a value beyond the limit is met first. -/
theorem evaluate_of_tighter_limit (h : l ≤ m ∨ Tighter l m) (ts : List Token) :
    evaluate l ts = evaluate m ts ∨ evaluate l ts = .error .overflow ∧
      FaultsFirst l (maxNesting + 1) 1 ts .overflow := by
  have htighter : Tighter l m := h.elim tighter_of_le id
  have hcut := cutShort_evaluate htighter ts
  generalize hl : evaluate l ts = a at hcut ⊢
  cases hcut with
  | same => exact .inl rfl
  | overflow => exact .inr ⟨rfl, (evaluate_eq_error (by decide)).1 hl⟩

/-- `999×2÷0` divides by zero, but not under a limit of a thousand, which the product exceeds. -/
theorem evaluate_of_tighter_limit_product :
    let ts : List Token := [.number "999", .operator .mul, .number "2", .operator .div, .number "0"]
    1000 ≤ noLimit ∧ evaluate noLimit ts = .error .divisionByZero ∧
      evaluate 1000 ts = .error .overflow ∧
      FaultsFirst 1000 (maxNesting + 1) 1 ts .overflow := by
  intro ts
  have hlimit : 1000 ≤ noLimit := by decide +kernel
  have hzero : evaluate noLimit ts = .error .divisionByZero := by decide +kernel
  have hcut : evaluate 1000 ts ≠ evaluate noLimit ts := by decide +kernel
  exact ⟨hlimit, hzero, (evaluate_of_tighter_limit (.inl hlimit) ts).resolve_left hcut⟩

end Evaluator
end PocketCalc
