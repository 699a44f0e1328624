import PocketCalc.Proofs.Evaluation.Meaning

/-!
# The first fault

Tokens are evaluated while they are read, so a sequence that is no sentence can come to an
arithmetic fault before its fault of syntax is reached.  `FaultsFirst` says when: a literal, a
percentage or an operator with both its operands complete comes to a fault, and everything
before it is in order.  This decides the error of every malformed sequence
(`evaluate_of_malformed`).
-/

namespace PocketCalc

open Evaluator

/-- `FaultsFirst limit depth level ts f`: reading the tokens `ts` at `level`, with groups less
than `depth` deep, comes to the arithmetic fault `f` before it comes to a fault of syntax. -/
inductive FaultsFirst (limit : Float) : Nat → Nat → List Token → EvalError → Prop
  | literal {depth level : Nat} {text : String} {x : Float} {f : EvalError} {rest : List Token}
    (hread : Literal.read? text.toList = some x) (hf : Checked limit x (.error f)) :
    FaultsFirst limit (depth + 1) level (.number text :: rest) f
  | group {depth level : Nat} {ts : List Token} {f : EvalError}
    (h : FaultsFirst limit depth 1 ts f) :
    FaultsFirst limit (depth + 1) level (.leftParen :: ts) f
  | percent {depth level : Nat} {e : Expression} {x : Float} {ts rest : List Token}
    {f : EvalError} (he : Front limit depth 3 e x ts (.percent :: rest))
    (hf : Checked limit (x / 100) (.error f)) : FaultsFirst limit depth level ts f
  | rightOperand {depth level : Nat} {op : Operator} {l : Expression} {x : Float}
    {ts us : List Token} {f : EvalError} (hop : level ≤ op.precedence)
    (hl : Front limit depth op.precedence l x ts (.operator op :: us))
    (h : FaultsFirst limit depth (op.precedence + 1) us f) : FaultsFirst limit depth level ts f
  /-- The right operand is complete: what follows it cannot go on an operand of `op`. -/
  | operation {depth level : Nat} {op : Operator} {l r : Expression} {x y : Float}
    {ts us rest : List Token} {f : EvalError} (hop : level ≤ op.precedence)
    (hl : Front limit depth op.precedence l x ts (.operator op :: us))
    (hr : Front limit depth (op.precedence + 1) r y us rest)
    (hrest : OperandEnds (op.precedence + 1) rest)
    (hf : Evaluates limit (.binary op l r) (.error f)) : FaultsFirst limit depth level ts f

namespace FaultsFirst

variable {limit : Float} {depth k m : Nat} {ts : List Token} {f : EvalError}

/-- A tighter reader comes to the same fault. -/
theorem mono (h : FaultsFirst limit depth m ts f) (hkm : k ≤ m) :
    FaultsFirst limit depth k ts f := by
  cases h with
  | literal hread hf => exact .literal hread hf
  | group h => exact .group h
  | percent he hf => exact .percent he hf
  | rightOperand hop hl h => exact .rightOperand (Nat.le_trans hkm hop) hl h
  | operation hop hl hr hrest hf => exact .operation (Nat.le_trans hkm hop) hl hr hrest hf

theorem checked_ne_malformed {x : Float} (h : Checked limit x (.error f)) :
    f ≠ .malformedExpression := by
  cases h
  decide

/-- The fault of an operator whose operands have values. -/
theorem apply_eq {op : Operator} {l r : Expression} {x y : Float} (hl : l.value limit = .ok x)
    (hr : r.value limit = .ok y) (h : Evaluates limit (.binary op l r) (.error f)) :
    apply limit op x y = .error f := by
  have hv := h.value_eq
  rw [Expression.value, hl, hr] at hv
  exact hv

theorem apply_ne_malformed {op : Operator} {x y : Float} (h : apply limit op x y = .error f) :
    f ≠ .malformedExpression := by
  cases op with
  | add | sub | mul => exact checked_ne_malformed (checked_iff.2 h)
  | div =>
    change (if y == 0 then _ else check limit (x / y)) = _ at h
    split at h
    · cases h
      decide
    · exact checked_ne_malformed (checked_iff.2 h)

theorem ne_malformed (h : FaultsFirst limit depth m ts f) : f ≠ .malformedExpression := by
  induction h with
  | literal _ hf | percent _ hf => exact checked_ne_malformed hf
  | group _ ih | rightOperand _ _ _ ih => exact ih
  | operation _ hl hr _ hf => exact apply_ne_malformed (apply_eq hl.value_eq hr.value_eq hf)

theorem not_of_depth_zero : ¬ FaultsFirst limit 0 m ts f := by
  intro h
  cases h with
  | percent he | rightOperand _ he | operation _ he =>
    exact absurd he.fits.nesting_lt (Nat.not_lt_zero _)

end FaultsFirst

/-- `read` comes to the arithmetic faults that are met first, and to no others. -/
def Reports (limit : Float) (depth level : Nat) (read : Reader) : Prop :=
  ∀ (ts : List Token) (f : EvalError), f ≠ .malformedExpression →
    (run read ts = .error f ↔ FaultsFirst limit depth level ts f)

theorem reports_refuse (limit : Float) (level : Nat) : Reports limit 0 level refuse := by
  intro ts f hf
  refine ⟨fun h => ?_, fun h => absurd h FaultsFirst.not_of_depth_zero⟩
  cases h
  exact absurd rfl hf

/-! ## Factors -/

theorem literal_eq_error {limit : Float} {text : String} {f : EvalError}
    (hf : f ≠ .malformedExpression) : literal limit text = .error f ↔
      ∃ x, Literal.read? text.toList = some x ∧ Checked limit x (.error f) := by
  unfold literal
  cases Literal.read? text.toList with
  | none => exact ⟨fun h => absurd (Except.error.inj h).symm hf, fun ⟨_, h, _⟩ => (nomatch h)⟩
  | some x =>
    refine ⟨fun h => ⟨x, rfl, checked_iff.2 h⟩, fun ⟨x', h, hc⟩ => ?_⟩
    cases h
    exact checked_iff.1 hc

theorem close_eq_error {r : Float × List Token} {f : EvalError} (h : close r = .error f) :
    f = .malformedExpression := by
  unfold close at h
  split at h
  · cases h
  · exact (Except.error.inj h).symm

/-- The percent signs after a factor come to a fault of a percentage. -/
theorem faultsFirst_of_run_percents {limit : Float} {depth : Nat} {e : Expression} {x : Float}
    {ts us : List Token} {f : EvalError} (he : Front limit depth 3 e x ts us)
    (h : run (percents limit x) us = .error f) : FaultsFirst limit depth 3 ts f := by
  induction us generalizing e x with
  | nil => cases h
  | cons t us ih =>
    cases t with
    | percent =>
      rw [run_percents_percent] at h
      rcases bind_eq_error.1 h with hc | ⟨y, hy, h⟩
      · exact .percent he (checked_iff.2 hc)
      · exact ih (front_percent he hy) h
    | number | operator | leftParen | rightParen => cases h

section Factor

variable {limit : Float} {depth : Nat} {group : Reader} (hg : Reads limit depth 1 group)
  (hr : Reports limit depth 1 group)

include hr in
theorem faultsFirst_of_run_primary {ts : List Token} {f : EvalError}
    (hf : f ≠ .malformedExpression) (h : run (primary limit group) ts = .error f) :
    FaultsFirst limit (depth + 1) 3 ts f := by
  match ts with
  | .number text :: us =>
    rw [run_primary_number] at h
    have hlit : literal limit text = .error f := by
      cases hl : literal limit text with
      | error f' => rw [hl] at h; exact congrArg Except.error (Except.error.inj h)
      | ok x => rw [hl] at h; cases h
    obtain ⟨x, hread, hc⟩ := (literal_eq_error hf).1 hlit
    exact .literal hread hc
  | .leftParen :: us =>
    rw [run_primary_group] at h
    rcases bind_eq_error.1 h with hrun | ⟨r, -, hclose⟩
    · exact .group ((hr _ _ hf).1 hrun)
    · exact absurd (close_eq_error hclose) hf
  | [] | .operator _ :: _ | .rightParen :: _ | .percent :: _ =>
    exact absurd (Except.error.inj h).symm hf

include hg hr in
theorem reports_factor : Reports limit (depth + 1) 3 (factor limit group) := by
  intro ts f hf
  constructor
  · intro h
    rw [run_factor] at h
    rcases bind_eq_error.1 h with hp | ⟨⟨x, us⟩, hp, h⟩
    · exact faultsFirst_of_run_primary hr hf hp
    · obtain ⟨e, he⟩ := exists_of_run_primary hg hp
      exact faultsFirst_of_run_percents he h
  · intro h
    cases h with
    | literal hread hc =>
      rw [run_factor, run_primary_number, (literal_eq_error hf).2 ⟨_, hread, hc⟩]
      rfl
    | group h =>
      rw [run_factor, run_primary_group, (hr _ _ hf).2 h]
      rfl
    | percent he hc =>
      rw [he.tokens_eq, run_factor_tokens hg he.fits, he.value_eq]
      show run (percents limit _) (.percent :: _) = _
      rw [run_percents_percent, checked_iff.1 hc]
      rfl
    | rightOperand hop | operation hop =>
      exact absurd hop (Nat.not_le_of_lt (Nat.lt_succ_of_le (Operator.precedence_le_two _)))

end Factor

/-! ## Chains of operators -/

section Binary

variable {limit : Float} {depth level : Nat} {operand : Reader}
  (ho : Reads limit depth (level + 1) operand) (hr : Reports limit depth (level + 1) operand)
include ho hr

/-- The operators of one precedence after a tree come to the fault of an operator or of one
of its operands. -/
theorem faultsFirst_of_run_chain {e : Expression} {x : Float} {ts us : List Token}
    {f : EvalError} (hf : f ≠ .malformedExpression) (he : Front limit depth level e x ts us)
    (hus : OperandEnds (level + 1) us) (h : run (chain limit level operand x) us = .error f) :
    FaultsFirst limit depth level ts f := by
  induction hn : us.length using Nat.strongRecOn generalizing e x us with
  | ind n ih =>
    by_cases hends : OperandEnds level us
    · rw [run_chain_of_ends hends] at h
      cases h
    · obtain ⟨op, vs, rfl, hop⟩ := exists_operator_of_not_ends hus hends
      rw [run_chain_operator hop] at h
      rcases bind_eq_error.1 h with hrun | ⟨⟨z, ws⟩, hrun, h⟩
      · subst hop
        exact .rightOperand (Nat.le_refl _) he ((hr _ _ hf).1 hrun)
      · obtain ⟨r, hfr, hws⟩ := ho.sound hrun
        rcases bind_eq_error.1 h with ha | ⟨w, hw, h⟩
        · subst hop
          refine .operation (Nat.le_refl _) he hfr hws (evaluates_iff.2 ?_)
          rw [Expression.value, he.value_eq, hfr.value_eq]
          exact ha
        · have hlen : ws.length < n := by
            rw [← hn, hfr.tokens_eq]
            simp only [List.length_cons, List.length_append]
            omega
          exact ih ws.length hlen (front_binary hop he hfr hw) hws h rfl

omit hr in
/-- After a tree read at `level`, the operators of this precedence are read. -/
theorem run_binary_front (hl : level ≤ 2) {op : Operator} (hop : op.precedence = level)
    {e : Expression} {x : Float} {ts us : List Token}
    (he : Front limit depth level e x ts (.operator op :: us)) :
    run (binary limit level operand) ts =
      run operand us >>= fun r => apply limit op x r.1 >>= fun y =>
        run (chain limit level operand y) r.2 := by
  have hends : OperandEnds (level + 1) (.operator op :: us) :=
    Nat.lt_succ_of_le (Nat.le_of_eq hop)
  rw [he.tokens_eq, run_binary_tokens ho hl he.fits hends, he.value_eq]
  exact run_chain_operator hop operand x us

theorem run_binary_of_faultsFirst (hl : level ≤ 2) {ts : List Token} {f : EvalError}
    (h : FaultsFirst limit depth level ts f) : run (binary limit level operand) ts = .error f := by
  have hf := h.ne_malformed
  -- A fault inside the first operand is met by the reader of operands.
  have hfirst : FaultsFirst limit depth (level + 1) ts f →
      run (binary limit level operand) ts = .error f := by
    intro h'
    rw [run_binary, (hr _ _ hf).2 h']
    rfl
  cases h with
  | literal hread hc => exact hfirst (.literal hread hc)
  | group h => exact hfirst (.group h)
  | percent he hc => exact hfirst (.percent he hc)
  | rightOperand hop he h =>
    rcases Nat.lt_or_eq_of_le hop with hlt | heq
    · exact hfirst (.rightOperand hlt he h)
    · subst heq
      rw [run_binary_front ho hl rfl he, (hr _ _ hf).2 h]
      rfl
  | operation hop he her hrest hev =>
    rcases Nat.lt_or_eq_of_le hop with hlt | heq
    · exact hfirst (.operation hlt he her hrest hev)
    · subst heq
      have happly := FaultsFirst.apply_eq he.value_eq her.value_eq hev
      rw [run_binary_front ho hl rfl he, her.tokens_eq, ho.complete her.fits hrest, her.value_eq]
      show (apply limit _ _ _ >>= _) = _
      rw [happly]
      rfl

theorem reports_binary (hl : level ≤ 2) :
    Reports limit depth level (binary limit level operand) := by
  intro ts f hf
  refine ⟨fun h => ?_, run_binary_of_faultsFirst ho hr hl⟩
  rw [run_binary] at h
  rcases bind_eq_error.1 h with hrun | ⟨⟨x, us⟩, hrun, h⟩
  · exact ((hr _ _ hf).1 hrun).mono (Nat.le_succ level)
  · obtain ⟨e, he, hus⟩ := ho.sound hrun
    have hfront : Front limit depth level e x ts us :=
      ⟨he.fits.mono (Nat.le_succ level), he.readable, he.value_eq, he.tokens_eq⟩
    exact faultsFirst_of_run_chain ho hr hf hfront hus h

end Binary

/-! ## Expressions -/

theorem reports_sums {limit : Float} {depth : Nat} {group : Reader}
    (hg : Reads limit depth 1 group) (hr : Reports limit depth 1 group) :
    Reports limit (depth + 1) 1 (sums limit group) := by
  have hfactor := reads_factor hg
  have hterm := reads_binary hfactor (Nat.le_refl 2)
  exact reports_binary hterm (reports_binary hfactor (reports_factor hg hr) (Nat.le_refl 2))
    (Nat.le_succ 1)

theorem reports_expression (limit : Float) (room : Nat) :
    Reports limit (room + 1) 1 (expression limit room) := by
  induction room with
  | zero => exact reports_sums (reads_refuse limit 1) (reports_refuse limit 1)
  | succ room ih => exact reports_sums (reads_expression limit room) ih

/-- The arithmetic errors of an evaluation are the faults that are met first. -/
theorem evaluate_eq_error {limit : Float} {ts : List Token} {f : EvalError}
    (hf : f ≠ .malformedExpression) :
    evaluate limit ts = .error f ↔ FaultsFirst limit (maxNesting + 1) 1 ts f := by
  rw [← reports_expression limit maxNesting ts f hf, evaluate_eq, bind_eq_error]
  refine ⟨fun h => ?_, Or.inl⟩
  rcases h with h | ⟨r, -, h⟩
  · exact h
  · split at h
    · cases h
    · exact absurd (Except.error.inj h).symm hf

/-- What is malformed has no value.  It is reported as malformed unless an arithmetic fault
comes before the fault of syntax; then that fault is reported. -/
theorem evaluate_of_malformed (limit : Float) {ts : List Token} (h : Malformed ts) :
    (∃ f, evaluate limit ts = .error f) ∧
    ∀ f, evaluate limit ts = .error f ↔
      FaultsFirst limit (maxNesting + 1) 1 ts f ∨
        (f = .malformedExpression ∧ ∀ g, ¬ FaultsFirst limit (maxNesting + 1) 1 ts g) := by
  have herror : ∃ f, evaluate limit ts = .error f := by
    cases hv : evaluate limit ts with
    | ok x =>
      obtain ⟨e, he, -⟩ := exists_sentence_of_evaluate hv
      exact absurd ⟨e, he⟩ (malformed_iff.1 h)
    | error f => exact ⟨f, rfl⟩
  refine ⟨herror, fun f => ⟨fun hf => ?_, fun hf => ?_⟩⟩
  · by_cases hm : f = .malformedExpression
    · refine Or.inr ⟨hm, fun g hg => hg.ne_malformed ?_⟩
      rw [(evaluate_eq_error hg.ne_malformed).2 hg] at hf
      exact (Except.error.inj hf).trans hm
    · exact Or.inl ((evaluate_eq_error hm).1 hf)
  · rcases hf with hf | ⟨hm, hno⟩
    · exact (evaluate_eq_error hf.ne_malformed).2 hf
    · obtain ⟨g, hg⟩ := herror
      by_cases hgm : g = .malformedExpression
      · rw [hg, hgm, hm]
      · exact absurd ((evaluate_eq_error hgm).1 hg) (hno g)

/-- `1+` is malformed and `1÷0+` divides by zero, though both end in an operator. -/
theorem evaluate_of_malformed_trailing_operator :
    (Malformed [.number "1", .operator .add] ∧
      evaluate noLimit [.number "1", .operator .add] = .error .malformedExpression ∧
      ∀ g, ¬ FaultsFirst noLimit (maxNesting + 1) 1 [.number "1", .operator .add] g) ∧
    Malformed [.number "1", .operator .div, .number "0", .operator .add] ∧
      FaultsFirst noLimit (maxNesting + 1) 1
        [.number "1", .operator .div, .number "0", .operator .add] .divisionByZero ∧
      evaluate noLimit [.number "1", .operator .div, .number "0", .operator .add] =
        .error .divisionByZero := by
  have h1 := malformed_append_operator [.number "1"] .add
  have h2 := malformed_append_operator [.number "1", .operator .div, .number "0"] .add
  have hvalue : evaluate noLimit [.number "1", .operator .add] = .error .malformedExpression := by
    decide +kernel
  have hone : Front noLimit (maxNesting + 1) (Operator.precedence .div) (.number "1") 1
      [.number "1", .operator .div, .number "0", .operator .add]
      [.operator .div, .number "0", .operator .add] :=
    front_number (by decide +kernel) maxNesting (by decide) _
  have hzero : Front noLimit (maxNesting + 1) (Operator.precedence .div + 1) (.number "0") 0
      [.number "0", .operator .add] [.operator .add] :=
    front_number (by decide +kernel) maxNesting (by decide) _
  have hfault : FaultsFirst noLimit (maxNesting + 1) 1
      [.number "1", .operator .div, .number "0", .operator .add] .divisionByZero :=
    .operation (by decide) hone hzero (show Operator.precedence .add < 3 by decide)
      (evaluates_iff.2 (by decide +kernel))
  refine ⟨⟨h1, hvalue, fun g hg => ?_⟩, h2, hfault, ?_⟩
  · rcases ((evaluate_of_malformed noLimit h1).2 _).1 hvalue with hf | ⟨-, hno⟩
    · exact hf.ne_malformed rfl
    · exact hno g hg
  · exact ((evaluate_of_malformed noLimit h2).2 _).2 (Or.inl hfault)

/-- Not everything malformed is reported as malformed. -/
theorem malformed_reported_as_divisionByZero :
    Malformed [.number "1", .operator .div, .number "0", .operator .add] ∧
      evaluate noLimit [.number "1", .operator .div, .number "0", .operator .add] ≠
        .error .malformedExpression :=
  ⟨malformed_append_operator [.number "1", .operator .div, .number "0"] .add, by decide +kernel⟩

end PocketCalc
