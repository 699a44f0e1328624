import PocketCalc.Proofs.Buffer.Entry
import PocketCalc.Proofs.Evaluation.Grammar

/-!
# The tokens of an expression can be typed

The tokens of a tree are admissible one after the other, wherever an operand may begin, if its
numbers are canonical numerals and no percent sign follows another one.  The parenthesis key
opens a group where the tree opens one and closes it where the tree closes it: always, if it
looks at the depth, and if it looks at the last parenthesis only, as long as groups do not nest.
-/

namespace PocketCalc

open Numeral (Canonical)

namespace Expression

theorem ends_tokens (e : Expression) : ∃ t, e.tokens.getLast? = some t ∧ t.endsOperand := by
  induction e with
  | number text => exact ⟨_, rfl, rfl⟩
  | group inner _ => exact ⟨_, List.getLast?_concat, rfl⟩
  | percent operand _ => exact ⟨_, List.getLast?_concat, rfl⟩
  | binary op l r _ ihr =>
    obtain ⟨t, hlast, ht⟩ := ihr
    refine ⟨t, ?_, ht⟩
    rw [tokens, List.getLast?_append, List.getLast?_cons, hlast]
    rfl

theorem exists_last?_append_tokens (e : Expression) (front : List Token) :
    ∃ t, (Buffer.mk (front ++ e.tokens)).last? = some t ∧ t.endsOperand := by
  obtain ⟨t, hlast, ht⟩ := e.ends_tokens
  refine ⟨t, ?_, ht⟩
  show (front ++ e.tokens).getLast? = some t
  rw [List.getLast?_append, hlast]
  rfl

theorem foldl_depthAfter_tokens (e : Expression) (depth : Nat) :
    e.tokens.foldl Buffer.depthAfter depth = depth := by
  induction e generalizing depth with
  | number text => rfl
  | group inner ih =>
    rw [tokens, List.foldl_concat, List.foldl_cons, ih]
    rfl
  | percent operand ih =>
    rw [tokens, List.foldl_concat, ih]
    rfl
  | binary op l r ihl ihr =>
    rw [tokens, List.foldl_append, ihl, List.foldl_cons]
    exact ihr depth

theorem parens_eq_nil {e : Expression} (h : e.nesting = 0) :
    e.tokens.filter Token.isParen = [] := by
  induction e with
  | number text => rfl
  | group inner _ => cases h
  | percent operand ih =>
    rw [tokens, List.filter_append, ih h]
    rfl
  | binary op l r ihl ihr =>
    obtain ⟨hl, hr⟩ : l.nesting = 0 ∧ r.nesting = 0 := by
      simp only [nesting] at h
      omega
    rw [tokens, List.filter_append, ihl hl, List.nil_append,
      List.filter_cons_of_neg Bool.false_ne_true, ihr hr]

theorem getLast?_parens_ne (e : Expression) :
    (e.tokens.filter Token.isParen).getLast? ≠ some .leftParen := by
  induction e with
  | number text =>
    intro h
    cases h
  | group inner _ =>
    intro h
    rw [tokens, List.filter_append, List.filter_cons_of_pos (by rfl)] at h
    cases List.getLast?_concat.symm.trans h
  | percent operand ih =>
    rw [tokens, List.filter_append, List.filter_cons_of_neg (by decide), List.filter_nil,
      List.append_nil]
    exact ih
  | binary op l r ihl ihr =>
    rw [tokens, List.filter_append, List.filter_cons_of_neg Bool.false_ne_true,
      List.getLast?_append]
    cases h : (r.tokens.filter Token.isParen).getLast? with
    | none => exact ihl
    | some t =>
      rw [h] at ihr
      exact ihr

end Expression

namespace Buffer

variable {mode : ParenMode} {front : List Token}

theorem openNumber?_of_not_ends (h : front.getLast?.any Token.endsOperand = false) :
    (Buffer.mk front).openNumber? = none := by
  rw [openNumber?_eq_none]
  intro text hlast
  rw [show front.getLast? = _ from hlast] at h
  cases h

theorem nextParen_opens (hends : front.getLast?.any Token.endsOperand = false)
    (hparens : mode = .balanced ∨ (front.filter Token.isParen).getLast? ≠ some .leftParen) :
    (Buffer.mk front).nextParen mode = .leftParen := by
  cases mode with
  | toggle => exact if_neg (hparens.resolve_left (by decide))
  | balanced => exact if_neg fun h => Bool.false_ne_true (hends.symm.trans h.2)

theorem nextParen_closes (e : Expression) (hparens : mode = .balanced ∨ e.nesting = 0) :
    (Buffer.mk (front ++ [Token.leftParen] ++ e.tokens)).nextParen mode = .rightParen := by
  cases mode with
  | toggle =>
    refine if_pos ?_
    show ((front ++ [Token.leftParen] ++ e.tokens).filter Token.isParen).getLast? =
      some .leftParen
    rw [List.filter_append, Expression.parens_eq_nil (hparens.resolve_left (by decide)),
      List.append_nil, List.filter_append]
    exact List.getLast?_concat
  | balanced =>
    refine if_pos ⟨?_, ?_⟩
    · -- The tree closes the groups that it opens, and leaves this one open.
      show 0 < (front ++ [Token.leftParen] ++ e.tokens).foldl depthAfter 0
      rw [List.foldl_append, e.foldl_depthAfter_tokens, List.foldl_concat]
      exact Nat.succ_pos _
    · obtain ⟨t, hlast, ht⟩ := e.exists_last?_append_tokens (front ++ [Token.leftParen])
      rw [hlast]
      exact ht

end Buffer

namespace Expression

open Buffer

variable {mode : ParenMode}

/-- The parenthesis key can type the groups of a tree after the tokens `front`. -/
def GroupsFit (mode : ParenMode) (front : List Token) (e : Expression) : Prop :=
  mode = .balanced ∨ e.nesting = 0 ∨
    e.nesting ≤ 1 ∧ (front.filter Token.isParen).getLast? ≠ some .leftParen

theorem GroupsFit.opens {front : List Token} {e : Expression}
    (h : (group e).GroupsFit mode front) :
    mode = .balanced ∨ (front.filter Token.isParen).getLast? ≠ some .leftParen := by
  rcases h with h | h | h
  · exact .inl h
  · cases h
  · exact .inr h.2

theorem GroupsFit.closes {front : List Token} {e : Expression}
    (h : (group e).GroupsFit mode front) : mode = .balanced ∨ e.nesting = 0 := by
  rcases h with h | h | h
  · exact .inl h
  · cases h
  · exact .inr (Nat.le_zero.1 (Nat.le_of_succ_le_succ h.1))

theorem GroupsFit.left {front : List Token} {op : Operator} {l r : Expression}
    (h : (binary op l r).GroupsFit mode front) : l.GroupsFit mode front := by
  rcases h with h | h | ⟨h, hlast⟩
  · exact .inl h
  · exact .inr (.inl (Nat.max_eq_zero_iff.1 h).1)
  · exact .inr (.inr ⟨(Nat.max_le.1 h).1, hlast⟩)

theorem GroupsFit.right {front : List Token} {op : Operator} {l r : Expression}
    (h : (binary op l r).GroupsFit mode front) :
    r.GroupsFit mode (front ++ l.tokens ++ [.operator op]) := by
  rcases h with h | h | ⟨h, hlast⟩
  · exact .inl h
  · exact .inr (.inl (Nat.max_eq_zero_iff.1 h).2)
  · refine .inr (.inr ⟨(Nat.max_le.1 h).2, ?_⟩)
    rw [List.filter_append, List.filter_append, List.filter_cons_of_neg Bool.false_ne_true,
      List.filter_nil, List.append_nil, List.getLast?_append]
    have hleft := l.getLast?_parens_ne
    cases hparens : (l.tokens.filter Token.isParen).getLast? with
    | none => exact hlast
    | some t =>
      rw [hparens] at hleft
      exact hleft

/-- The numbers are as they are typed, and no percent sign follows another one. -/
structure Typable (e : Expression) : Prop where
  numbers : ∀ text, .number text ∈ e.tokens → Canonical text.toList
  percents : ¬ [.percent, .percent] <:+: e.tokens

theorem Typable.of_segment {e f : Expression} (h : f.Typable) (hsegment : e.tokens <:+: f.tokens) :
    e.Typable where
  numbers text hmem := h.numbers text (hsegment.subset hmem)
  percents hpercents := h.percents (hpercents.trans hsegment)

theorem Typable.ne_percent {e : Expression} {front : List Token} {t : Token}
    (h : (percent e).Typable) (hlast : (Buffer.mk (front ++ e.tokens)).last? = some t) :
    t ≠ .percent := by
  rintro rfl
  obtain ⟨t, hends, -⟩ := e.ends_tokens
  obtain rfl : t = .percent := by
    change (front ++ e.tokens).getLast? = _ at hlast
    rw [List.getLast?_append, hends] at hlast
    exact Option.some.inj hlast
  refine h.percents ⟨e.tokens.dropLast, [], ?_⟩
  rw [tokens, List.append_nil, ← List.dropLast_append_getLast? _ hends, List.append_assoc,
    List.dropLast_concat]
  rfl

/-- The tokens of a tree can be typed wherever an operand may begin. -/
theorem entered_append_tokens (e : Expression) {front : List Token}
    (hfront : (Buffer.mk front).Entered mode)
    (hends : front.getLast?.any Token.endsOperand = false)
    (htyped : e.Typable) (hgroups : e.GroupsFit mode front) :
    (Buffer.mk (front ++ e.tokens)).Entered mode := by
  induction e generalizing front with
  | number text =>
    have htext : Canonical text.toList := htyped.numbers text List.mem_cons_self
    exact hfront.push (.number (openNumber?_of_not_ends hends) htext)
  | group inner ih =>
    have hopened : (Buffer.mk (front ++ [.leftParen])).Entered mode :=
      hfront.push (.paren (nextParen_opens hends hgroups.opens))
    have hread : (Buffer.mk (front ++ [.leftParen] ++ inner.tokens)).Entered mode := by
      refine ih hopened ?_ (htyped.of_segment ⟨[.leftParen], [.rightParen], rfl⟩) ?_
      · rw [List.getLast?_concat]
        rfl
      · exact hgroups.closes.imp_right .inl
    rw [append_tokens_group]
    exact hread.push (.paren (nextParen_closes inner hgroups.closes))
  | percent operand ih =>
    have hread : (Buffer.mk (front ++ operand.tokens)).Entered mode :=
      ih hfront hends (htyped.of_segment ⟨[], [.percent], rfl⟩) hgroups
    obtain ⟨t, hlast, ht⟩ := operand.exists_last?_append_tokens front
    rw [append_tokens_percent]
    exact hread.push (.percent hlast ht (htyped.ne_percent hlast))
  | binary op l r ihl ihr =>
    have hleft : (Buffer.mk (front ++ l.tokens)).Entered mode :=
      ihl hfront hends (htyped.of_segment ⟨[], .operator op :: r.tokens, rfl⟩) hgroups.left
    obtain ⟨t, hlast, ht⟩ := l.exists_last?_append_tokens front
    have hoperator : (Buffer.mk (front ++ l.tokens ++ [.operator op])).Entered mode :=
      hleft.push (.operator hlast ht)
    rw [append_tokens_binary]
    refine ihr hoperator ?_ (htyped.of_segment ?_) hgroups.right
    · rw [List.getLast?_concat]
      rfl
    · exact ⟨l.tokens ++ [.operator op], [], by simp [tokens]⟩

end Expression
end PocketCalc
