import PocketCalc.Proofs.Evaluation.Unfinished
import PocketCalc.Proofs.Session.Tidy

/-!
# Completing what was typed

The rules of entry look at the last token, and at the depth where the parenthesis key is
balanced; the grammar looks at the whole.  A balanced buffer is nevertheless always the beginning
of an expression, with one exception: a number or a group may be begun directly after an operand.
Without that, an operand where one is missing and a closing parenthesis for every open group
complete the buffer.  With it, nothing that could still be typed gives the expression a value.
-/

namespace PocketCalc
namespace Buffer

variable {b : Buffer}

/-- Whether an operand has just ended. -/
def endsOperand (b : Buffer) : Bool := b.last?.any Token.endsOperand

/-- The tokens of a buffer brought to an end, with a one where an operand is missing and with
all groups closed. -/
def completed (b : Buffer) : List Token :=
  (if b.endsOperand then b else b.push (.number "1")).tokens ++
    List.replicate b.depth .rightParen

theorem endsOperand_push (b : Buffer) (t : Token) : (b.push t).endsOperand = t.endsOperand := by
  rw [endsOperand, last?_push, Option.any_some]

theorem endsOperand_of_last? {t : Token} (hlast : b.last? = some t) (ht : t.endsOperand) :
    b.endsOperand := by
  rw [endsOperand, hlast, Option.any_some, ht]

theorem juxtaposed_push {t : Token} (hb : b.endsOperand) (ht : t.startsOperand) :
    Juxtaposed (b.push t).tokens := by
  unfold endsOperand at hb
  cases hlast : b.last? with
  | none =>
    rw [hlast] at hb
    cases hb
  | some u =>
    rw [hlast] at hb
    exact juxtaposed_concat hlast hb ht

/-- A balanced buffer is the beginning of an expression, inside as many groups as its depth. -/
theorem Entered.place (h : b.Entered .balanced) (hapart : ¬ Juxtaposed b.tokens) :
    (b.endsOperand = true → Ends b.depth b.tokens) ∧
      (b.endsOperand = false → Awaits b.depth b.tokens) := by
  induction h with
  | empty => exact ⟨nofun, fun _ => awaits_nil⟩
  | @push b t _ ht ih =>
    obtain ⟨hends, hawaits⟩ := ih fun hj => hapart (hj.append [t])
    have hstarts : t.startsOperand → Awaits b.depth b.tokens := fun hstart =>
      hawaits (Bool.eq_false_iff.2 fun hend => hapart (juxtaposed_push hend hstart))
    rw [endsOperand_push, depth_push, tokens_push]
    cases ht with
    | number => exact ⟨fun _ => (hstarts rfl).number _, nofun⟩
    | signed => exact ⟨fun _ => (hstarts rfl).number _, nofun⟩
    | operator hlast ht =>
      exact ⟨nofun, fun _ => (hends (endsOperand_of_last? hlast ht)).operator _⟩
    | percent hlast ht =>
      exact ⟨fun _ => (hends (endsOperand_of_last? hlast ht)).percent, nofun⟩
    | paren ht =>
      rcases b.nextParen_eq_or .balanced with hopens | hcloses
      · obtain rfl := ht.symm.trans hopens
        exact ⟨nofun, fun _ => (hstarts rfl).opens⟩
      · obtain rfl := ht.symm.trans hcloses
        obtain ⟨hdepth, hlast⟩ := nextParen_balanced_eq_rightParen.1 hcloses
        have hinside := hends hlast
        rw [← Nat.succ_pred_eq_of_pos hdepth] at hinside
        exact ⟨fun _ => hinside.closes, nofun⟩

theorem Entered.exists_tree (h : b.Entered .balanced) (hapart : ¬ Juxtaposed b.tokens) :
    ∃ e : Expression, e.WellFormed ∧ e.tokens = b.completed := by
  obtain ⟨hends, hawaits⟩ := h.place hapart
  unfold completed
  by_cases hb : b.endsOperand
  · rw [if_pos hb]
    exact (hends hb).exists_tree
  · rw [if_neg hb]
    exact ((hawaits (Bool.eq_false_iff.2 hb)).number "1").exists_tree

/-- Completing a buffer opens no groups. -/
theorem deepest_completed (b : Buffer) : deepest 0 b.completed = b.nesting := by
  have hdepth : b.depth ≤ b.nesting := foldl_depthAfter_le_deepest 0 b.tokens
  unfold completed
  rw [deepest_append, deepest_replicate_rightParen]
  split
  · exact Nat.max_eq_left hdepth
  · show max (deepest 0 (b.tokens ++ [Token.number "1"]))
      ((b.tokens ++ [Token.number "1"]).foldl depthAfter 0) = _
    rw [deepest_append, List.foldl_concat]
    show max (max b.nesting (max b.depth b.depth)) b.depth = _
    omega

theorem Entered.isSome_read?_completed (h : b.Entered .balanced) {text : String}
    (hmem : .number text ∈ b.completed) : (Literal.read? text.toList).isSome := by
  rcases List.mem_append.1 hmem with hmem | hmem
  · split at hmem
    · exact h.isSome_read? hmem
    · rcases List.mem_append.1 hmem with hmem | hmem
      · exact h.isSome_read? hmem
      · cases List.mem_singleton.1 hmem
        decide +kernel
  · cases List.eq_of_mem_replicate hmem

theorem Entered.exists_sentence (h : b.Entered .balanced) (hapart : ¬ Juxtaposed b.tokens)
    (hnesting : b.nesting ≤ Evaluator.maxNesting) : ∃ e, Sentence b.completed e := by
  obtain ⟨e, he, htokens⟩ := h.exists_tree hapart
  refine ⟨e, derives_iff.2 ⟨he, htokens⟩, ?_, Expression.readable_iff.2 fun text hmem => ?_⟩
  · rw [← deepest_completed, ← htokens, deepest_tokens, Nat.zero_add] at hnesting
    exact hnesting
  · rw [htokens] at hmem
    exact h.isSome_read?_completed hmem

end Buffer

namespace Calculator

variable {c : Calculator}

/-- Where the parenthesis key is balanced, the buffer of a calculator in use can be completed to
a sentence, as long as it does not nest too deep and no operand stands directly after another
one.  Once one does, no continuation has a value. -/
theorem completed_is_sentence_unless_juxtaposed (h : InUse c)
    (hbalanced : c.config.parenMode = .balanced) :
    (¬ Juxtaposed c.buffer.tokens → c.buffer.nesting ≤ Evaluator.maxNesting →
      ∀ limit, Evaluator.evaluate limit c.buffer.completed ≠ .error .malformedExpression) ∧
    (Juxtaposed c.buffer.tokens →
      ∀ limit more x, Evaluator.evaluate limit (c.buffer.tokens ++ more) ≠ .ok x) := by
  have hentered : c.buffer.Entered .balanced := hbalanced ▸ (tidy_of_inUse h).buffer
  refine ⟨fun hapart hnesting limit => ?_, fun hj => hj.evaluate_append_ne_ok⟩
  obtain ⟨e, he⟩ := hentered.exists_sentence hapart hnesting
  obtain ⟨hwellFormed, htokens⟩ := derives_iff.1 he.derives
  rw [← htokens, Evaluator.evaluate_tokens limit hwellFormed he.nesting_le]
  exact Expression.value_ne_malformed he.readable limit

/-- `-2×(4%+(`, carried on from a result and with a digit deleted, is completed by `1))`, and
`5(` by nothing. -/
theorem completed_is_sentence_unless_juxtaposed_continued :
    let now : Timestamp := ⟨2024, 1, 2, 3, 4, 5, by decide⟩
    let first := ofConfig { parenMode := .balanced }
    let c := first.act now (.pressAll [.digit 3, .operator .sub, .digit 5, .equals,
      .operator .mul, .paren, .digit 4, .percent, .operator .add, .paren, .digit 7, .backspace])
    let d := first.act now (.pressAll [.digit 5, .paren])
    (InUse c ∧ c.buffer.nesting = 2 ∧ c.buffer.completed = [.number "-2", .operator .mul,
        .leftParen, .number "4", .percent, .operator .add, .leftParen, .number "1", .rightParen,
        .rightParen] ∧
      Evaluator.evaluate Evaluator.noLimit c.buffer.completed ≠ .error .malformedExpression) ∧
    InUse d ∧ d.buffer.tokens = [.number "5", .leftParen] ∧
      ∀ more x, Evaluator.evaluate Evaluator.noLimit (d.buffer.tokens ++ more) ≠ .ok x := by
  intro now first c d
  have hfirst : InUse first := inUse_ofConfig (by decide +kernel)
  have hc : InUse c := hfirst.act now _
  have hd : InUse d := hfirst.act now _
  have hnesting : c.buffer.nesting = 2 := by decide +kernel
  have hapart : ¬ Juxtaposed c.buffer.tokens := not_juxtaposed_iff.2 (by decide +kernel)
  have htokens : d.buffer.tokens = [.number "5", .leftParen] := by decide +kernel
  have hjuxtaposed : Juxtaposed d.buffer.tokens := ⟨[], _, _, [], htokens, rfl, rfl⟩
  have hviable := (completed_is_sentence_unless_juxtaposed hc (by decide +kernel)).1 hapart
  have hlost := (completed_is_sentence_unless_juxtaposed hd (by decide +kernel)).2 hjuxtaposed
  refine ⟨⟨hc, hnesting, by decide +kernel, hviable ?_ _⟩, hd, htokens, hlost _⟩
  rw [hnesting]
  decide

end Calculator
end PocketCalc
