import Mathlib.Data.List.Induction
import PocketCalc.Proofs.Buffer.Entry
import PocketCalc.Proofs.Evaluation.Reading

/-!
# The first number of an expression

An expression may begin with a number that was not typed: the text of a result, which can have a
sign.  The text stands for the number and does not matter beyond that.  A tree that begins with a
number has the same value whichever text the number is written with (`value_withFirst`), and what
can be typed after one text can be typed after the other (`Entered.retype_first`).
-/

namespace PocketCalc

open Numeral (Canonical)

namespace Expression

/-- The tree with another text for the number that it begins with, if it begins with one. -/
def withFirst (text : String) : Expression → Expression
  | number _ => number text
  | group inner => group inner
  | percent operand => percent (operand.withFirst text)
  | binary op left right => binary op (left.withFirst text) right

variable {e : Expression} {s text : String}

theorem level_withFirst (text : String) (e : Expression) : (e.withFirst text).level = e.level := by
  cases e <;> rfl

theorem nesting_withFirst (text : String) (e : Expression) :
    (e.withFirst text).nesting = e.nesting := by
  induction e with
  | number _ | group _ _ => rfl
  | percent operand ih => exact ih
  | binary op l r ih _ => exact congrArg (max · r.nesting) ih

theorem WellFormed.withFirst (h : e.WellFormed) (text : String) :
    (e.withFirst text).WellFormed := by
  induction e with
  | number _ | group _ _ => exact h
  | percent operand ih =>
    refine ⟨ih h.1, ?_⟩
    rw [level_withFirst]
    exact h.2
  | binary op l r ih _ =>
    refine ⟨⟨ih h.1.1, ?_⟩, h.2⟩
    rw [level_withFirst]
    exact h.1.2

theorem head?_tokens_percent (e : Expression) : (percent e).tokens.head? = e.tokens.head? :=
  List.head?_append_of_ne_nil _ e.tokens_ne_nil

theorem head?_tokens_binary (op : Operator) (l r : Expression) :
    (binary op l r).tokens.head? = l.tokens.head? :=
  List.head?_append_of_ne_nil _ l.tokens_ne_nil

/-- The other tokens stay. -/
theorem tokens_withFirst (h : e.tokens.head? = some (.number s)) (text : String) :
    (e.withFirst text).tokens = .number text :: e.tokens.tail := by
  induction e with
  | number _ => rfl
  | group inner _ => cases h
  | percent operand ih =>
    rw [head?_tokens_percent] at h
    rw [withFirst, tokens, ih h, tokens, List.tail_append_of_ne_nil operand.tokens_ne_nil]
    rfl
  | binary op l r ih _ =>
    rw [head?_tokens_binary] at h
    rw [withFirst, tokens, ih h, tokens, List.tail_append_of_ne_nil l.tokens_ne_nil]
    rfl

/-- The value is that of the number, not that of its text. -/
theorem value_withFirst {limit : Float} (h : e.tokens.head? = some (.number s))
    (hread : Literal.read? text.toList = Literal.read? s.toList) :
    (e.withFirst text).value limit = e.value limit := by
  induction e with
  | number s' =>
    obtain rfl : s' = s := Token.number.inj (Option.some.inj h)
    show Evaluator.literal limit text = Evaluator.literal limit s'
    rw [Evaluator.literal, Evaluator.literal, hread]
  | group inner _ => rfl
  | percent operand ih =>
    rw [head?_tokens_percent] at h
    rw [withFirst, value, value, ih h]
  | binary op l r ih _ =>
    rw [head?_tokens_binary] at h
    rw [withFirst, value, value, ih h]

/-- The tokens of a tree that begins with a number come to the value of the tree, also with another
text for the number. -/
theorem evaluate_withFirst {limit : Float} {ts : List Token} (he : e.WellFormed)
    (hnesting : e.nesting ≤ Evaluator.maxNesting) (htokens : e.tokens = .number s :: ts)
    (hread : Literal.read? text.toList = Literal.read? s.toList) :
    Evaluator.evaluate limit (.number text :: ts) = e.value limit := by
  have hhead : e.tokens.head? = some (.number s) := by rw [htokens]; rfl
  have htext : (e.withFirst text).tokens = .number text :: ts := by
    rw [tokens_withFirst hhead, htokens]
    rfl
  rw [← htext, Evaluator.evaluate_tokens limit (he.withFirst text)
    (nesting_withFirst text e ▸ hnesting), value_withFirst hhead hread]

end Expression

namespace Buffer

variable {mode : ParenMode} {s text : String} {ts : List Token} {t : Token}

theorem nextParen_retype_first (s text : String) (ts : List Token) :
    (Buffer.mk (.number s :: ts)).nextParen mode =
      (Buffer.mk (.number text :: ts)).nextParen mode := by
  cases mode with
  | toggle => rfl
  | balanced =>
    cases ts with
    | nil => rfl
    | cons u us => rfl

/-- What can be put after a buffer does not depend on the text of its first number. -/
theorem Accepts.retype_first (h : (Buffer.mk (.number s :: ts)).Accepts mode t) (text : String) :
    (Buffer.mk (.number text :: ts)).Accepts mode t := by
  cases h with
  | paren ht => exact .paren ((nextParen_retype_first text s ts).trans ht)
  | signed hb => cases hb
  | number hopen htext =>
    cases ts with
    | nil => cases hopen
    | cons u us => exact .number hopen htext
  | operator hlast ht =>
    cases ts with
    | nil => exact .operator rfl rfl
    | cons u us => exact .operator hlast ht
  | percent hlast ht hne =>
    cases ts with
    | nil => exact .percent rfl rfl nofun
    | cons u us => exact .percent hlast ht hne

/-- The text of the first number may be changed into that of any other result. -/
theorem Entered.retype_first (h : (Buffer.mk (.number s :: ts)).Entered mode)
    (htext : Canonical text.toList ∨ ∃ cs, text.toList = '-' :: cs ∧ Canonical cs) :
    (Buffer.mk (.number text :: ts)).Entered mode := by
  induction ts using List.reverseRecOn with
  | nil => exact entered_seeded htext
  | append_singleton ts t ih =>
    have hbefore : (Buffer.mk (.number s :: ts)).Entered mode := h.of_prefix ⟨[t], rfl⟩
    have ht : (Buffer.mk (.number s :: ts)).Accepts mode t := h.accepts rfl
    exact (ih hbefore).push (ht.retype_first text)

end Buffer
end PocketCalc
