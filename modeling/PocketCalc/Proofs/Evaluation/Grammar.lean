import PocketCalc.Expression

/-!
# The grammar

`Derives` states the grammar on sequences of tokens, each phrase with its syntax tree.
A derivable sequence is the tokens of a well-formed tree and the other way round
(`derives_iff`), and it has one tree only (`Derives.unique`).  So a sequence of tokens is
either a sentence, with a tree of its own, or malformed, in one of three ways
(`malformed_iff`).
-/

namespace PocketCalc

/-- The kinds of phrases, from the loosest to the tightest. -/
inductive Phrase where
  | expression
  | term
  | factor
  | primary
deriving DecidableEq

/-- `Derives p ts e`: the tokens `ts` are a phrase of kind `p`, and `e` is its tree.  The
repetitions of the grammar are left recursive here, which is what associates operators of
equal precedence to the left. -/
inductive Derives : Phrase → List Token → Expression → Prop
  | number (text : String) : Derives .primary [.number text] (.number text)
  | group {ts : List Token} {e : Expression} (inner : Derives .expression ts e) :
    Derives .primary (.leftParen :: ts ++ [.rightParen]) (.group e)
  | primary {ts : List Token} {e : Expression} (h : Derives .primary ts e) : Derives .factor ts e
  | percent {ts : List Token} {e : Expression} (h : Derives .factor ts e) :
    Derives .factor (ts ++ [.percent]) (.percent e)
  | factor {ts : List Token} {e : Expression} (h : Derives .factor ts e) : Derives .term ts e
  | product {op : Operator} {ts us : List Token} {e f : Expression} (hop : op = .mul ∨ op = .div)
    (left : Derives .term ts e) (right : Derives .factor us f) :
    Derives .term (ts ++ .operator op :: us) (.binary op e f)
  | term {ts : List Token} {e : Expression} (h : Derives .term ts e) : Derives .expression ts e
  | sum {op : Operator} {ts us : List Token} {e f : Expression} (hop : op = .add ∨ op = .sub)
    (left : Derives .expression ts e) (right : Derives .term us f) :
    Derives .expression (ts ++ .operator op :: us) (.binary op e f)

/-- `ts` is a sentence with the tree `e`: it is derivable, its groups nest no deeper than
allowed, and all its numbers can be read. -/
structure Sentence (ts : List Token) (e : Expression) : Prop where
  derives : Derives .expression ts e
  nesting_le : e.nesting ≤ Evaluator.maxNesting
  readable : e.Readable

/-- The three ways in which a sequence of tokens is no sentence. -/
inductive Malformed (ts : List Token) : Prop
  | underivable (h : ∀ e, ¬ Derives .expression ts e)
  | tooDeep {e : Expression} (h : Derives .expression ts e)
    (deep : Evaluator.maxNesting < e.nesting)
  | unreadable {text : String} (mem : .number text ∈ ts) (h : Literal.read? text.toList = none)

namespace Operator

theorem precedence_eq_one {op : Operator} : op.precedence = 1 ↔ op = .add ∨ op = .sub := by
  cases op <;> simp [precedence]

theorem precedence_eq_two {op : Operator} : op.precedence = 2 ↔ op = .mul ∨ op = .div := by
  cases op <;> simp [precedence]

theorem one_le_precedence (op : Operator) : 1 ≤ op.precedence := by
  cases op <;> decide

theorem precedence_le_two (op : Operator) : op.precedence ≤ 2 := by
  cases op <;> decide

end Operator

namespace Phrase

/-- How tightly the phrases of a kind hold together. -/
def level : Phrase → Nat
  | expression => 1
  | term => 2
  | factor | primary => 3

end Phrase

/-! ## Derivable sequences and well-formed trees -/

namespace Expression

theorem one_le_level (e : Expression) : 1 ≤ e.level := by
  cases e with
  | binary op l r => exact op.one_le_precedence
  | number | group | percent => exact Nat.le_add_left 1 2

end Expression

theorem Derives.wellFormed {p : Phrase} {ts : List Token} {e : Expression} (h : Derives p ts e) :
    e.tokens = ts ∧ e.WellFormed ∧ p.level ≤ e.level := by
  induction h with
  | number text => exact ⟨rfl, trivial, Nat.le_refl 3⟩
  | group _ ih => exact ⟨by rw [Expression.tokens, ih.1], ih.2.1, Nat.le_refl 3⟩
  | primary _ ih => exact ih
  | percent _ ih => exact ⟨by rw [Expression.tokens, ih.1], ⟨ih.2.1, ih.2.2⟩, Nat.le_refl 3⟩
  | factor _ ih => exact ⟨ih.1, ih.2.1, Nat.le_of_succ_le ih.2.2⟩
  | term _ ih => exact ⟨ih.1, ih.2.1, Nat.le_of_succ_le ih.2.2⟩
  | product hop _ _ ihl ihr =>
    have hp := Operator.precedence_eq_two.2 hop
    refine ⟨by rw [Expression.tokens, ihl.1, ihr.1], ⟨⟨ihl.2.1, ?_⟩, ihr.2.1, ?_⟩, ?_⟩
    · rw [hp]; exact ihl.2.2
    · rw [hp]; exact ihr.2.2
    · exact Nat.le_of_eq hp.symm
  | sum hop _ _ ihl ihr =>
    have hp := Operator.precedence_eq_one.2 hop
    refine ⟨by rw [Expression.tokens, ihl.1, ihr.1], ⟨⟨ihl.2.1, ?_⟩, ihr.2.1, ?_⟩, ?_⟩
    · rw [hp]; exact ihl.2.2
    · rw [hp]; exact ihr.2.2
    · exact Nat.le_of_eq hp.symm

/-- A factor is a term, and a term is an expression. -/
theorem Derives.loosen {ts : List Token} {e : Expression} (h : Derives .factor ts e) :
    Derives .expression ts e := .term (.factor h)

theorem derives_of_wellFormed {e : Expression} (he : e.WellFormed) :
    Derives .expression e.tokens e ∧ (2 ≤ e.level → Derives .term e.tokens e) ∧
      (3 ≤ e.level → Derives .factor e.tokens e) := by
  induction e with
  | number text =>
    have h : Derives .factor [.number text] (.number text) := .primary (.number text)
    exact ⟨h.loosen, fun _ => .factor h, fun _ => h⟩
  | group inner ih =>
    have h : Derives .factor (Expression.group inner).tokens (.group inner) :=
      .primary (.group (ih he).1)
    exact ⟨h.loosen, fun _ => .factor h, fun _ => h⟩
  | percent operand ih =>
    have h : Derives .factor (Expression.percent operand).tokens (.percent operand) :=
      .percent ((ih he.1).2.2 he.2)
    exact ⟨h.loosen, fun _ => .factor h, fun _ => h⟩
  | binary op l r ihl ihr =>
    obtain ⟨⟨hl, hlop⟩, hr, hrop⟩ := he
    have htight : ¬ 3 ≤ (Expression.binary op l r).level := by
      have := op.precedence_le_two
      simp only [Expression.level]
      omega
    rcases Nat.lt_or_ge op.precedence 2 with hlt | hge
    · have hp : op.precedence = 1 := by have := op.one_le_precedence; omega
      have h : Derives .expression (Expression.binary op l r).tokens (.binary op l r) :=
        .sum (Operator.precedence_eq_one.1 hp) (ihl hl).1 ((ihr hr).2.1 (by omega))
      refine ⟨h, fun h2 => ?_, fun h3 => absurd h3 htight⟩
      simp only [Expression.level] at h2
      omega
    · have hp : op.precedence = 2 := by have := op.precedence_le_two; omega
      have h : Derives .term (Expression.binary op l r).tokens (.binary op l r) :=
        .product (Operator.precedence_eq_two.1 hp) ((ihl hl).2.1 (by omega))
          ((ihr hr).2.2 (by omega))
      exact ⟨.term h, fun _ => h, fun h3 => absurd h3 htight⟩

/-- The derivable sequences are the tokens of the well-formed trees. -/
theorem derives_iff {ts : List Token} {e : Expression} :
    Derives .expression ts e ↔ e.WellFormed ∧ e.tokens = ts := by
  refine ⟨fun h => ⟨h.wellFormed.2.1, h.wellFormed.1⟩, fun ⟨he, hts⟩ => ?_⟩
  rw [← hts]
  exact (derives_of_wellFormed he).1

/-! ## One tree for each sequence

Two trees over the same tokens are compared from the right.  The last operand of an operator
holds together more tightly than what stands before it, so the shorter of two last operands
cannot end inside the other one. -/

/-- The tokens `front` end where an operand that holds together at `level` may start. -/
def OperandStarts (level : Nat) (front : List Token) : Prop :=
  ∀ t, front.getLast? = some t → t = .leftParen ∨ ∃ op, t = .operator op ∧ op.precedence < level

theorem OperandStarts.mono {front : List Token} {k m : Nat} (h : OperandStarts k front)
    (hkm : k ≤ m) : OperandStarts m front := by
  intro t ht
  rcases h t ht with hp | ⟨op, rfl, hop⟩
  · exact Or.inl hp
  · exact Or.inr ⟨op, rfl, Nat.lt_of_lt_of_le hop hkm⟩

theorem operandStarts_leftParen (k : Nat) (front : List Token) :
    OperandStarts k (front ++ [.leftParen]) := by
  intro t ht
  rw [List.getLast?_concat, Option.some.injEq] at ht
  exact Or.inl ht.symm

theorem operandStarts_operator {op : Operator} {k : Nat} {front : List Token} :
    OperandStarts k (front ++ [.operator op]) ↔ op.precedence < k := by
  refine ⟨fun h => ?_, fun h t ht => ?_⟩
  · rcases h _ List.getLast?_concat with hp | ⟨op', hop, hlt⟩
    · cases hp
    · cases hop
      exact hlt
  · rw [List.getLast?_concat, Option.some.injEq] at ht
    exact Or.inr ⟨op, ht.symm, h⟩

namespace Expression

/-- The tokens of an operator, with its right operand set apart. -/
theorem append_tokens_binary (front : List Token) (op : Operator) (l r : Expression) :
    front ++ (binary op l r).tokens = (front ++ l.tokens ++ [.operator op]) ++ r.tokens := by
  simp [tokens]

theorem append_tokens_group (front : List Token) (e : Expression) :
    front ++ (group e).tokens = (front ++ [.leftParen]) ++ e.tokens ++ [.rightParen] := by
  simp [tokens]

theorem append_tokens_percent (front : List Token) (e : Expression) :
    front ++ (percent e).tokens = front ++ e.tokens ++ [.percent] := by
  simp [tokens]

theorem getLast?_tokens_number (text : String) :
    (number text).tokens.getLast? = some (.number text) := rfl

theorem getLast?_tokens_group (e : Expression) :
    (group e).tokens.getLast? = some .rightParen := List.getLast?_concat

theorem getLast?_tokens_percent (e : Expression) :
    (percent e).tokens.getLast? = some .percent := List.getLast?_concat

/-- Reading from the right, a tree is found again in one way only. -/
theorem append_tokens_inj (e f : Expression) {k : Nat} {front front' : List Token}
    (he : e.WellFormed) (hf : f.WellFormed) (hke : k ≤ e.level) (hkf : k ≤ f.level)
    (hfront : OperandStarts k front) (hfront' : OperandStarts k front')
    (h : front ++ e.tokens = front' ++ f.tokens) : front = front' ∧ e = f := by
  -- If one tree holds together more tightly than the operator of the other, it is the right
  -- operand of that operator, and the operator stands where an operand should start.
  by_cases hfe : ∃ op l r, f = binary op l r ∧ op.precedence < e.level
  · obtain ⟨op, l, r, rfl, hop⟩ := hfe
    rw [append_tokens_binary] at h
    obtain ⟨h1, -⟩ := append_tokens_inj e r he hf.2.1 hop hf.2.2
      (hfront.mono (Nat.le_succ_of_le hkf)) (operandStarts_operator.2 (Nat.lt_succ_self _)) h
    rw [h1, operandStarts_operator] at hfront
    exact absurd hkf (Nat.not_le_of_lt hfront)
  by_cases hef : ∃ op l r, e = binary op l r ∧ op.precedence < f.level
  · obtain ⟨op, l, r, rfl, hop⟩ := hef
    rw [append_tokens_binary] at h
    obtain ⟨h1, -⟩ := append_tokens_inj r f he.2.1 hf he.2.2 hop
      (operandStarts_operator.2 (Nat.lt_succ_self _)) (hfront'.mono (Nat.le_succ_of_le hke)) h
    rw [← h1, operandStarts_operator] at hfront'
    exact absurd hke (Nat.not_le_of_lt hfront')
  match e, f with
  | .number s, .number t =>
    obtain ⟨h1, h2⟩ := List.append_inj' h rfl
    cases h2
    exact ⟨h1, rfl⟩
  | .group e, .group f =>
    rw [append_tokens_group, append_tokens_group] at h
    obtain ⟨h1, rfl⟩ := append_tokens_inj e f he hf e.one_le_level f.one_le_level
      (operandStarts_leftParen 1 front) (operandStarts_leftParen 1 front')
      (List.append_cancel_right h)
    exact ⟨List.append_cancel_right h1, rfl⟩
  | .percent e, .percent f =>
    rw [append_tokens_percent, append_tokens_percent] at h
    obtain ⟨h1, rfl⟩ := append_tokens_inj e f he.1 hf.1 he.2 hf.2 (hfront.mono hke)
      (hfront'.mono hkf) (List.append_cancel_right h)
    exact ⟨h1, rfl⟩
  | .binary op l r, .binary op' l' r' =>
    have hp : op.precedence = op'.precedence := by
      refine Nat.le_antisymm ?_ ?_
      · exact Nat.not_lt.1 fun hlt => hfe ⟨op', l', r', rfl, hlt⟩
      · exact Nat.not_lt.1 fun hlt => hef ⟨op, l, r, rfl, hlt⟩
    rw [append_tokens_binary, append_tokens_binary] at h
    obtain ⟨h1, rfl⟩ := append_tokens_inj r r' he.2.1 hf.2.1 he.2.2 (hp ▸ hf.2.2)
      (operandStarts_operator.2 (Nat.lt_succ_self _))
      (operandStarts_operator.2 (hp ▸ Nat.lt_succ_self _)) h
    obtain ⟨h2, h3⟩ := List.append_inj' h1 rfl
    cases h3
    obtain ⟨h4, rfl⟩ := append_tokens_inj l l' he.1.1 hf.1.1 (Nat.le_trans hke he.1.2)
      (Nat.le_trans hkf hf.1.2) hfront hfront' h2
    exact ⟨h4, rfl⟩
  | .number _, .group _ | .number _, .percent _ | .group _, .number _ | .group _, .percent _
  | .percent _, .number _ | .percent _, .group _ =>
    have hlast := congrArg List.getLast? h
    simp [getLast?_tokens_number, getLast?_tokens_group, getLast?_tokens_percent] at hlast
  | .number _, .binary op l r | .group _, .binary op l r | .percent _, .binary op l r =>
    exact absurd ⟨op, l, r, rfl, Nat.lt_succ_of_le op.precedence_le_two⟩ hfe
  | .binary op l r, .number _ | .binary op l r, .group _ | .binary op l r, .percent _ =>
    exact absurd ⟨op, l, r, rfl, Nat.lt_succ_of_le op.precedence_le_two⟩ hef
termination_by sizeOf e + sizeOf f

end Expression

/-- A sequence of tokens has at most one tree. -/
theorem Derives.unique {ts : List Token} {e f : Expression} (he : Derives .expression ts e)
    (hf : Derives .expression ts f) : e = f := by
  have hstart : OperandStarts 1 [] := fun t ht => absurd ht (by simp)
  rw [derives_iff] at he hf
  refine (Expression.append_tokens_inj e f he.1 hf.1 e.one_le_level f.one_le_level hstart
    hstart ?_).2
  rw [he.2, hf.2]

/-! ## Sentences -/

namespace Expression

theorem readable_iff {e : Expression} :
    e.Readable ↔ ∀ text, .number text ∈ e.tokens → (Literal.read? text.toList).isSome := by
  induction e with
  | number text => simp [Readable, tokens]
  | group inner ih => simp [Readable, tokens, ih]
  | percent operand ih => simp [Readable, tokens, ih]
  | binary op l r ihl ihr =>
    simp only [Readable, tokens, ihl, ihr, List.mem_append, List.mem_cons, reduceCtorEq,
      false_or]
    exact ⟨fun h text ht => ht.elim (h.1 text) (h.2 text),
      fun h => ⟨fun text ht => h text (Or.inl ht), fun text ht => h text (Or.inr ht)⟩⟩

/-- No tree ends in an operator. -/
theorem getLast?_tokens_ne_operator (e : Expression) (op : Operator) :
    e.tokens.getLast? ≠ some (.operator op) := by
  induction e with
  | number text => rw [getLast?_tokens_number]; exact fun h => (nomatch h)
  | group inner => rw [getLast?_tokens_group]; exact fun h => (nomatch h)
  | percent operand => rw [getLast?_tokens_percent]; exact fun h => (nomatch h)
  | binary op' l r _ ih =>
    rw [← List.nil_append (binary op' l r).tokens, append_tokens_binary, List.getLast?_append]
    cases hr : r.tokens.getLast? with
    | none => exact absurd (List.getLast?_eq_none_iff.1 hr) r.tokens_ne_nil
    | some t =>
      rw [hr] at ih
      exact ih

/-- A tree has as many opening as closing parentheses. -/
theorem count_leftParen_tokens (e : Expression) :
    e.tokens.count .leftParen = e.tokens.count .rightParen := by
  induction e with
  | number text => rfl
  | group inner ih => simp [tokens, ih]
  | percent operand ih => simp [tokens, ih]
  | binary op l r ihl ihr => simp [tokens, ihl, ihr]

end Expression

/-- What is malformed has no tree that makes it a sentence, and nothing else has none. -/
theorem malformed_iff {ts : List Token} : Malformed ts ↔ ¬ ∃ e, Sentence ts e := by
  constructor
  · rintro hm ⟨e, he⟩
    cases hm with
    | underivable h => exact h e he.derives
    | tooDeep h deep =>
      rw [h.unique he.derives] at deep
      exact absurd he.nesting_le (Nat.not_le_of_lt deep)
    | unreadable mem h =>
      have hread := Expression.readable_iff.1 he.readable _ (he.derives.wellFormed.1.symm ▸ mem)
      rw [h] at hread
      cases hread
  · intro h
    by_cases hd : ∃ e, Derives .expression ts e
    · obtain ⟨e, he⟩ := hd
      rcases Nat.lt_or_ge Evaluator.maxNesting e.nesting with hn | hn
      · exact .tooDeep he hn
      · by_cases hr : e.Readable
        · exact absurd ⟨e, he, hn, hr⟩ h
        · rw [Expression.readable_iff] at hr
          simp only [Classical.not_forall, Option.not_isSome_iff_eq_none] at hr
          obtain ⟨text, mem, hnone⟩ := hr
          exact .unreadable (he.wellFormed.1 ▸ mem) hnone
    · exact .underivable fun e he => hd ⟨e, he⟩

theorem malformed_append_operator (ts : List Token) (op : Operator) :
    Malformed (ts ++ [.operator op]) := by
  refine .underivable fun e he => e.getLast?_tokens_ne_operator op ?_
  rw [he.wellFormed.1, List.getLast?_concat]

end PocketCalc
