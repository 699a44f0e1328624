import Mathlib.Data.List.Chain
import PocketCalc.Proofs.Buffer.Sentence
import PocketCalc.Proofs.Evaluation.Fault

/-!
# Unfinished expressions

The tokens of an expression that is not finished are groups that are still open, each with a
tree and an operator or with nothing before it, and after the last of them the beginning of one
more expression.  `Awaits` says that an operand has to follow, `Ends` that one has just ended,
and both say how many groups are open.  Every token that may follow leads from one of the two to
the other or back, and closing the open groups leaves a tree (`Ends.exists_tree`).  What no tree
has is an operand directly after another one (`not_juxtaposed_tokens`).
-/

namespace PocketCalc

/-- Whether an operand can begin here. -/
def Token.startsOperand : Token → Bool
  | number _ | leftParen => true
  | operator _ | rightParen | percent => false

/-- An operand begins directly after the end of another one. -/
def Juxtaposed (ts : List Token) : Prop :=
  ∃ front t u rest, ts = front ++ t :: u :: rest ∧ t.endsOperand ∧ u.startsOperand

theorem not_juxtaposed_iff {ts : List Token} :
    ¬ Juxtaposed ts ↔ ts.IsChain fun t u => ¬ (t.endsOperand ∧ u.startsOperand) := by
  rw [List.isChain_iff_forall_rel_of_append_cons_cons]
  refine ⟨fun h t u front rest hts hpair => h ⟨front, t, u, rest, hts, hpair⟩, fun h => ?_⟩
  rintro ⟨front, t, u, rest, hts, hpair⟩
  exact h hts hpair

theorem Juxtaposed.append {ts : List Token} (h : Juxtaposed ts) (more : List Token) :
    Juxtaposed (ts ++ more) := by
  obtain ⟨front, t, u, rest, rfl, hpair⟩ := h
  exact ⟨front, t, u, rest ++ more, by simp, hpair⟩

theorem juxtaposed_concat {ts : List Token} {t u : Token} (hlast : ts.getLast? = some t)
    (ht : t.endsOperand) (hu : u.startsOperand) : Juxtaposed (ts ++ [u]) := by
  refine ⟨ts.dropLast, t, u, [], ?_, ht, hu⟩
  conv_lhs => rw [← List.dropLast_append_getLast? t hlast]
  simp

theorem not_juxtaposed_cons {t : Token} {ts : List Token} (ht : t.endsOperand = false)
    (hts : ¬ Juxtaposed ts) : ¬ Juxtaposed (t :: ts) := by
  rw [not_juxtaposed_iff] at hts ⊢
  exact List.isChain_cons.2 ⟨fun u _ h => Bool.false_ne_true (ht.symm.trans h.1), hts⟩

theorem not_juxtaposed_append {u : Token} {ts us : List Token} (hts : ¬ Juxtaposed ts)
    (hus : ¬ Juxtaposed (u :: us)) (hu : u.startsOperand = false) :
    ¬ Juxtaposed (ts ++ u :: us) := by
  rw [not_juxtaposed_iff] at hts hus ⊢
  refine List.isChain_append.2 ⟨hts, hus, ?_⟩
  rintro t - u' hu'
  obtain rfl := Option.some.inj hu'
  exact fun h => Bool.false_ne_true (hu.symm.trans h.2)

namespace Expression

/-! ## Operands and operators take turns -/

theorem not_juxtaposed_tokens (e : Expression) : ¬ Juxtaposed e.tokens := by
  induction e with
  | number text => exact not_juxtaposed_iff.2 (List.isChain_singleton _)
  | group inner ih =>
    exact not_juxtaposed_append (not_juxtaposed_cons rfl ih)
      (not_juxtaposed_iff.2 (List.isChain_singleton _)) rfl
  | percent operand ih =>
    exact not_juxtaposed_append ih (not_juxtaposed_iff.2 (List.isChain_singleton _)) rfl
  | binary op l r ihl ihr => exact not_juxtaposed_append ihl (not_juxtaposed_cons rfl ihr) rfl

/-! ## A token after a tree -/

/-- A tight operand joins a tree at the tail, wherever its operator binds. -/
theorem exists_join (e : Expression) (op : Operator) {f : Expression} (he : e.WellFormed)
    (hf : f.WellFormed) (htight : 3 ≤ f.level) :
    ∃ e' : Expression, e'.WellFormed ∧ e'.tokens = e.tokens ++ .operator op :: f.tokens ∧
      min e.level op.precedence ≤ e'.level := by
  have hop : op.precedence < f.level :=
    Nat.lt_of_lt_of_le (Nat.lt_succ_of_le op.precedence_le_two) htight
  induction e with
  | number | group | percent =>
    refine ⟨binary op _ f, ⟨⟨he, ?_⟩, hf, hop⟩, rfl, Nat.min_le_right _ _⟩
    exact Nat.le_succ_of_le op.precedence_le_two
  | binary op' l r _ ih =>
    by_cases hbinds : op.precedence ≤ op'.precedence
    · exact ⟨binary op _ f, ⟨⟨he, hbinds⟩, hf, hop⟩, rfl, Nat.min_le_right _ _⟩
    · -- The operator binds more tightly than the one before it and takes its right operand.
      obtain ⟨hl, hr, hlevel⟩ := he
      obtain ⟨r', hr', htokens, hlevel'⟩ := ih hr
      refine ⟨binary op' l r', ⟨hl, hr', ?_⟩, ?_, Nat.min_le_left _ _⟩
      · omega
      · rw [tokens, htokens, tokens, List.append_assoc, List.cons_append]

theorem exists_percent (e : Expression) (he : e.WellFormed) :
    ∃ e' : Expression, e'.WellFormed ∧ e'.tokens = e.tokens ++ [.percent] ∧
      e.level ≤ e'.level := by
  induction e with
  | number | group | percent => exact ⟨percent _, ⟨he, Nat.le_refl 3⟩, rfl, Nat.le_refl 3⟩
  | binary op l r _ ih =>
    obtain ⟨hl, hr, hlevel⟩ := he
    obtain ⟨r', hr', htokens, hlevel'⟩ := ih hr
    refine ⟨binary op l r', ⟨hl, hr', Nat.lt_of_lt_of_le hlevel hlevel'⟩, ?_, Nat.le_refl _⟩
    rw [tokens, htokens, tokens, List.append_assoc, List.cons_append]

end Expression

/-! ## Places in an expression -/

/-- What may stand before an operand: nothing, or a tree and an operator. -/
inductive Lead : List Token → Prop
  | nothing : Lead []
  | operator {e : Expression} (he : e.WellFormed) (op : Operator) :
    Lead (e.tokens ++ [.operator op])

/-- An expression may begin after the tokens, inside so many groups. -/
inductive Opened : Nat → List Token → Prop
  | outside : Opened 0 []
  | inside {n : Nat} {ts lead : List Token} (h : Opened n ts) (hlead : Lead lead) :
    Opened (n + 1) (ts ++ lead ++ [.leftParen])

/-- An operand has to follow the tokens, inside so many groups. -/
inductive Awaits : Nat → List Token → Prop
  | intro {n : Nat} {front lead : List Token} (h : Opened n front) (hlead : Lead lead) :
    Awaits n (front ++ lead)

/-- An operand ends with the tokens, inside so many groups. -/
inductive Ends : Nat → List Token → Prop
  | intro {n : Nat} {front : List Token} {e : Expression} (h : Opened n front)
    (he : e.WellFormed) : Ends n (front ++ e.tokens)

variable {n : Nat} {ts : List Token}

theorem Lead.exists_tree {lead : List Token} (h : Lead lead) {f : Expression}
    (hf : f.WellFormed) (htight : 3 ≤ f.level) :
    ∃ e : Expression, e.WellFormed ∧ e.tokens = lead ++ f.tokens := by
  cases h with
  | nothing => exact ⟨f, hf, rfl⟩
  | @operator e he op =>
    obtain ⟨e', he', htokens, -⟩ := e.exists_join op he hf htight
    exact ⟨e', he', by rw [htokens, List.append_assoc, List.singleton_append]⟩

theorem awaits_nil : Awaits 0 [] := .intro .outside .nothing

theorem Awaits.opens (h : Awaits n ts) : Awaits (n + 1) (ts ++ [.leftParen]) := by
  obtain ⟨hopened, hlead⟩ := h
  have hinside := Awaits.intro (.inside hopened hlead) .nothing
  rwa [List.append_nil] at hinside

theorem Awaits.operand (h : Awaits n ts) {f : Expression} (hf : f.WellFormed)
    (htight : 3 ≤ f.level) : Ends n (ts ++ f.tokens) := by
  obtain ⟨hopened, hlead⟩ := h
  obtain ⟨e, he, htokens⟩ := hlead.exists_tree hf htight
  rw [List.append_assoc, ← htokens]
  exact .intro hopened he

theorem Awaits.number (h : Awaits n ts) (text : String) : Ends n (ts ++ [.number text]) :=
  h.operand (f := .number text) trivial (Nat.le_refl 3)

theorem Ends.operator (h : Ends n ts) (op : Operator) : Awaits n (ts ++ [.operator op]) := by
  obtain ⟨hopened, he⟩ := h
  rw [List.append_assoc]
  exact .intro hopened (.operator he op)

theorem Ends.percent (h : Ends n ts) : Ends n (ts ++ [.percent]) := by
  obtain ⟨hopened, he⟩ := h
  obtain ⟨e', he', htokens, -⟩ := Expression.exists_percent _ he
  rw [List.append_assoc, ← htokens]
  exact .intro hopened he'

/-- A group that closes is the operand that was awaited where it opened. -/
theorem Ends.closes (h : Ends (n + 1) ts) : Ends n (ts ++ [.rightParen]) := by
  obtain ⟨hopened, he⟩ := h
  cases hopened with
  | @inside _ front lead hfront hlead =>
    have hgroup := (Awaits.intro hfront hlead).operand (f := .group _) he (Nat.le_refl 3)
    rwa [Expression.append_tokens_group] at hgroup

/-- Closing all open groups leaves a tree. -/
theorem Ends.exists_tree (h : Ends n ts) :
    ∃ e : Expression, e.WellFormed ∧ e.tokens = ts ++ List.replicate n .rightParen := by
  induction n generalizing ts with
  | zero =>
    obtain ⟨hopened, he⟩ := h
    cases hopened
    exact ⟨_, he, (List.append_nil _).symm⟩
  | succ n ih =>
    obtain ⟨e, he, htokens⟩ := ih h.closes
    exact ⟨e, he, by rw [htokens, List.replicate_succ, List.append_assoc, List.singleton_append]⟩

/-! ## Nesting -/

namespace Buffer

/-- The most groups that are open at once, from `depth` open ones on. -/
def deepest (depth : Nat) : List Token → Nat
  | [] => depth
  | t :: ts => max depth (deepest (depthAfter depth t) ts)

/-- How deep the groups of a buffer nest. -/
def nesting (b : Buffer) : Nat := deepest 0 b.tokens

theorem le_deepest (depth : Nat) (ts : List Token) : depth ≤ deepest depth ts := by
  cases ts with
  | nil => exact Nat.le_refl depth
  | cons t ts => exact Nat.le_max_left _ _

theorem foldl_depthAfter_le_deepest (depth : Nat) (ts : List Token) :
    ts.foldl depthAfter depth ≤ deepest depth ts := by
  induction ts generalizing depth with
  | nil => exact Nat.le_refl depth
  | cons t ts ih => exact Nat.le_trans (ih _) (Nat.le_max_right _ _)

theorem deepest_append (depth : Nat) (ts us : List Token) :
    deepest depth (ts ++ us) = max (deepest depth ts) (deepest (ts.foldl depthAfter depth) us) := by
  induction ts generalizing depth with
  | nil => exact (Nat.max_eq_right (le_deepest depth us)).symm
  | cons t ts ih => rw [List.cons_append, deepest, ih, deepest, List.foldl_cons, Nat.max_assoc]

theorem deepest_replicate_rightParen (depth n : Nat) :
    deepest depth (List.replicate n .rightParen) = depth := by
  induction n generalizing depth with
  | zero => rfl
  | succ n ih =>
    rw [List.replicate_succ, deepest, ih]
    exact Nat.max_eq_left (Nat.sub_le depth 1)

theorem deepest_tokens (depth : Nat) (e : Expression) :
    deepest depth e.tokens = depth + e.nesting := by
  induction e generalizing depth with
  | number text => exact Nat.max_self depth
  | group inner ih =>
    rw [Expression.tokens, deepest_append, deepest, ih, List.foldl_cons,
      inner.foldl_depthAfter_tokens, Expression.nesting]
    simp only [depthAfter, deepest]
    omega
  | percent operand ih =>
    rw [Expression.tokens, deepest_append, ih, operand.foldl_depthAfter_tokens,
      Expression.nesting]
    simp only [depthAfter, deepest]
    omega
  | binary op l r ihl ihr =>
    rw [Expression.tokens, deepest_append, ihl, l.foldl_depthAfter_tokens, deepest,
      Expression.nesting]
    simp only [depthAfter, ihr]
    omega

end Buffer

/-! ## Values of trees -/

/-- Only a number that cannot be read makes a tree malformed. -/
theorem Expression.value_ne_malformed {e : Expression} (he : e.Readable) (limit : Float) :
    e.value limit ≠ .error .malformedExpression := by
  induction e with
  | number text =>
    intro h
    obtain ⟨x, hread⟩ := Option.isSome_iff_exists.1 he
    rw [value, Evaluator.literal, hread] at h
    exact FaultsFirst.checked_ne_malformed (checked_iff.2 h) rfl
  | group inner ih => exact ih he
  | percent operand ih =>
    intro h
    rcases bind_eq_error.1 h with hoperand | ⟨x, -, hx⟩
    · exact ih he hoperand
    · exact FaultsFirst.checked_ne_malformed (checked_iff.2 hx) rfl
  | binary op l r ihl ihr =>
    intro h
    rcases bind_eq_error.1 h with hl | ⟨x, -, h⟩
    · exact ihl he.1 hl
    · rcases bind_eq_error.1 h with hr | ⟨y, -, hxy⟩
      · exact ihr he.2 hr
      · exact FaultsFirst.apply_ne_malformed hxy rfl

/-- Whatever follows two operands side by side, the whole has no value. -/
theorem Juxtaposed.evaluate_append_ne_ok {ts : List Token} (h : Juxtaposed ts) (limit : Float)
    (more : List Token) (x : Float) : Evaluator.evaluate limit (ts ++ more) ≠ .ok x := by
  intro hx
  obtain ⟨e, he, -⟩ := Evaluator.exists_sentence_of_evaluate hx
  refine e.not_juxtaposed_tokens ?_
  rw [he.derives.wellFormed.1]
  exact h.append more

end PocketCalc
