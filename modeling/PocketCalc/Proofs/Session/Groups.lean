import PocketCalc.Proofs.Buffer.Rules
import PocketCalc.Proofs.Session.Tidy

/-!
# The groups in a buffer in use

The parenthesis key closes a group only where one is open.  So no beginning of the buffer closes
more groups than it opens, and the depth counts exactly those that are still open
(`parens_in_order`).  A key that toggles makes one group after the other and none inside another.
A key that balances may nest them, and closes none that is empty or that ends in an operator.
-/

namespace PocketCalc
namespace Buffer

variable {mode : ParenMode} {b : Buffer} {t : Token}

/-- The parentheses of a buffer, without the tokens between them. -/
def parens (b : Buffer) : Buffer := ⟨b.tokens.filter Token.isParen⟩

/-- One group after the other: each parenthesis closes the group that the one before it opens, or
opens the next group. -/
structure Alternating (b : Buffer) : Prop where
  first : b.parens.tokens.head? ≠ some .rightParen
  chain : b.parens.tokens.IsChain (· ≠ ·)
  depth_eq : b.depth = if b.parens.last? = some .leftParen then 1 else 0

theorem parens_push_of_isParen (ht : t.isParen) : (b.push t).parens = b.parens.push t := by
  refine congrArg Buffer.mk ?_
  rw [tokens_push, List.filter_append, List.filter_cons_of_pos ht]
  rfl

theorem parens_push_of_not_isParen (ht : ¬ t.isParen) : (b.push t).parens = b.parens := by
  refine congrArg Buffer.mk ?_
  rw [tokens_push, List.filter_append, List.filter_cons_of_neg ht]
  exact List.append_nil _

theorem depth_push_of_not_isParen (ht : ¬ t.isParen) : (b.push t).depth = b.depth := by
  rw [depth_push]
  cases t with
  | leftParen | rightParen => exact absurd rfl ht
  | number | operator | percent => rfl

/-! ## What the parenthesis key appends -/

theorem Accepts.nextParen_eq (h : b.Accepts mode t) (ht : t.isParen) : b.nextParen mode = t := by
  cases h with
  | paren hnext => exact hnext
  | _ => cases ht

theorem Alternating.push_paren (h : b.Alternating) (ht : t.isParen)
    (hfirst : t = .rightParen → ¬ b.parens.isEmpty) (hlast : b.parens.last? ≠ some t)
    (hdepth : (b.push t).depth = if t = .leftParen then 1 else 0) : (b.push t).Alternating := by
  have hparens : (b.push t).parens = b.parens.push t := parens_push_of_isParen ht
  refine ⟨?_, ?_, ?_⟩
  · rw [hparens, head?_tokens_push]
    cases hhead : b.parens.tokens.head? with
    | none =>
      intro heq
      refine hfirst (Option.some.inj heq) (List.isEmpty_iff.2 ?_)
      exact List.head?_eq_none_iff.1 hhead
    | some p =>
      rw [Option.some_or, ← hhead]
      exact h.first
  · rw [hparens, isChain_tokens_push]
    exact ⟨h.chain, fun p hp heq => hlast (heq ▸ hp)⟩
  · simp only [hparens, last?_push, hdepth, Option.some.injEq]

theorem Alternating.push_nextParen (h : b.Alternating) :
    (b.push (b.nextParen .toggle)).Alternating := by
  by_cases hopen : b.parens.last? = some .leftParen
  · have hdepth : b.depth = 1 := h.depth_eq.trans (if_pos hopen)
    rw [nextParen_toggle_eq_rightParen.2 hopen]
    refine h.push_paren rfl (fun _ hempty => ?_) (fun hlast => ?_) ?_
    · rw [isEmpty_iff.1 hempty] at hopen
      cases hopen
    · cases hopen.symm.trans hlast
    · rw [depth_push, hdepth]
      rfl
  · have hdepth : b.depth = 0 := h.depth_eq.trans (if_neg hopen)
    have hnext : b.nextParen .toggle = .leftParen :=
      (b.nextParen_eq_or .toggle).resolve_right (mt nextParen_toggle_eq_rightParen.1 hopen)
    rw [hnext]
    refine h.push_paren rfl nofun hopen ?_
    rw [depth_push, hdepth]
    rfl

theorem Alternating.push_of_not_isParen (h : b.Alternating) (ht : ¬ t.isParen) :
    (b.push t).Alternating := by
  have hparens : (b.push t).parens = b.parens := parens_push_of_not_isParen ht
  refine ⟨?_, ?_, ?_⟩
  · rw [hparens]
    exact h.first
  · rw [hparens]
    exact h.chain
  · rw [hparens, depth_push_of_not_isParen ht]
    exact h.depth_eq

/-! ## Buffers as they are typed -/

theorem Entered.alternating (h : b.Entered .toggle) : b.Alternating := by
  induction h with
  | empty => exact ⟨nofun, .nil, rfl⟩
  | @push b t _ ht ih =>
    by_cases hparen : t.isParen
    · rw [← ht.nextParen_eq hparen]
      exact ih.push_nextParen
    · exact ih.push_of_not_isParen hparen

/-- A group is closed only where one is open. -/
theorem Entered.depth_pos (h : b.Entered mode) (hnext : b.nextParen mode = .rightParen) :
    0 < b.depth := by
  cases mode with
  | toggle =>
    have hopen : b.parens.last? = some .leftParen := nextParen_toggle_eq_rightParen.1 hnext
    rw [h.alternating.depth_eq, if_pos hopen]
    exact Nat.one_pos
  | balanced => exact (nextParen_balanced_eq_rightParen.1 hnext).1

theorem Entered.depth_add_count (h : b.Entered mode) :
    b.depth + b.tokens.count .rightParen = b.tokens.count .leftParen := by
  induction h with
  | empty => rfl
  | @push b t h ht ih =>
    rw [depth_push, tokens_push, List.count_append, List.count_append, ← ih]
    cases t with
    | rightParen =>
      have hopen : 0 < b.depth := h.depth_pos (ht.nextParen_eq rfl)
      show b.depth - 1 + (_ + 1) = b.depth + _ + 0
      omega
    | leftParen =>
      show b.depth + 1 + (_ + 0) = b.depth + _ + 1
      omega
    | number | operator | percent => rfl

end Buffer

namespace Calculator

variable {c : Calculator}

/-- In the buffer of a calculator in use, no beginning has more closing parentheses than opening
ones, its depth is their difference, and a parenthesis closes only where a group is open.  Those of
a key that toggles open and close in turn, so that no two groups are open at once.  One of a key
that balances closes only after a number, a group or a percent sign. -/
theorem parens_in_order (h : InUse c) :
    (∀ front, front <+: c.buffer.tokens → front.count .rightParen ≤ front.count .leftParen ∧
      (Buffer.mk front).depth = front.count .leftParen - front.count .rightParen) ∧
    (∀ front rest, c.buffer.tokens = front ++ .rightParen :: rest →
      0 < (Buffer.mk front).depth) ∧
    (c.config.parenMode = .toggle → c.buffer.Alternating ∧ c.buffer.depth ≤ 1) ∧
    (c.config.parenMode = .balanced → ∀ front rest,
      c.buffer.tokens = front ++ .rightParen :: rest →
        ∃ t, front.getLast? = some t ∧ t.endsOperand) := by
  have hentered := (tidy_of_inUse h).buffer
  have hcloses : ∀ {front rest}, c.buffer.tokens = front ++ .rightParen :: rest →
      (Buffer.mk front).nextParen c.config.parenMode = .rightParen := fun htokens =>
    (hentered.accepts htokens).nextParen_eq rfl
  refine ⟨fun front hfront => ?_, fun front rest htokens => ?_, fun hmode => ?_,
    fun hmode front rest htokens => ?_⟩
  · have hcount := (hentered.of_prefix hfront).depth_add_count
    dsimp only at hcount
    omega
  · exact (hentered.of_prefix ⟨_, htokens.symm⟩).depth_pos (hcloses htokens)
  · rw [hmode] at hentered
    refine ⟨hentered.alternating, ?_⟩
    rw [hentered.alternating.depth_eq]
    split
    · exact Nat.le_refl 1
    · exact Nat.zero_le 1
  · have hnext := hcloses htokens
    rw [hmode] at hnext
    exact (Option.any_eq_true _ _).1 (Buffer.nextParen_balanced_eq_rightParen.1 hnext).2

/-- The same keys under both modes.  Toggling makes an empty group of the first two parentheses,
balancing one inside the other. -/
theorem parens_in_order_both_modes :
    let now : Timestamp := ⟨2024, 1, 2, 3, 4, 5, by decide⟩
    let keys := .pressAll [.paren, .paren, .digit 2, .percent, .paren, .paren, .backspace, .paren]
    let toggled := new.act now keys
    let balanced := (ofConfig { parenMode := .balanced }).act now keys
    toggled.buffer.tokens =
      [.leftParen, .rightParen, .number "2", .percent, .leftParen, .rightParen] ∧
    balanced.buffer.tokens =
      [.leftParen, .leftParen, .number "2", .percent, .rightParen, .rightParen] ∧
    InUse toggled ∧ toggled.buffer.Alternating ∧
    InUse balanced ∧ (Buffer.mk [.leftParen, .leftParen, .number "2", .percent]).depth = 2 - 0 ∧
    ∃ t, [Token.leftParen, .leftParen, .number "2", .percent].getLast? = some t ∧
      t.endsOperand := by
  intro now keys toggled balanced
  have htoggled : InUse toggled := inUse_new.act now _
  have hbalanced : InUse balanced := (inUse_ofConfig (by decide +kernel)).act now _
  have htokens : balanced.buffer.tokens =
      [.leftParen, .leftParen, .number "2", .percent, .rightParen, .rightParen] := by
    decide +kernel
  obtain ⟨-, -, halternating, -⟩ := parens_in_order htoggled
  obtain ⟨hcounts, -, -, hoperand⟩ := parens_in_order hbalanced
  refine ⟨by decide +kernel, htokens, htoggled, (halternating (by decide +kernel)).1, hbalanced,
    (hcounts _ ⟨[.rightParen, .rightParen], htokens ▸ rfl⟩).2, ?_⟩
  exact hoperand (by decide +kernel) [.leftParen, .leftParen, .number "2", .percent] _ htokens

end Calculator
end PocketCalc
