import Mathlib.Data.List.Basic
import PocketCalc.Buffer
import PocketCalc.Proofs.Number.Numeral

/-!
# Buffers as they are typed

`Entered` says that every token of a buffer was admissible after the tokens before it: numbers
are canonical numerals and never stand next to each other, operators and percent signs follow
operands, and a parenthesis is the one that the parenthesis key stands for at that place.  A
number with a sign can only be the first token.  Every change that a key makes to a buffer keeps
it so, and deleting at the end does too.
-/

namespace PocketCalc
namespace Buffer

open Numeral (Canonical)

/-- What can be put after the tokens of a buffer. -/
inductive Accepts (mode : ParenMode) (b : Buffer) : Token → Prop
  | number {text : String} (hopen : b.openNumber? = none) (htext : Canonical text.toList) :
    Accepts mode b (.number text)
  /-- The text of a negative number that was not typed, or what editing has left of it. -/
  | signed {text : String} {cs : List Char} (hb : b.isEmpty) (htext : text.toList = '-' :: cs)
    (hcs : Numeral cs) : Accepts mode b (.number text)
  | operator {op : Operator} {t : Token} (hlast : b.last? = some t) (ht : t.endsOperand) :
    Accepts mode b (.operator op)
  | percent {t : Token} (hlast : b.last? = some t) (ht : t.endsOperand) (hne : t ≠ .percent) :
    Accepts mode b .percent
  | paren {t : Token} (ht : b.nextParen mode = t) : Accepts mode b t

/-- The buffers that can be built up token by token. -/
inductive Entered (mode : ParenMode) : Buffer → Prop
  | empty : Entered mode empty
  | push {b : Buffer} {t : Token} (h : Entered mode b) (ht : b.Accepts mode t) :
    Entered mode (b.push t)

variable {mode : ParenMode} {b b' : Buffer} {t : Token} {c : Char}

/-! ## The last token -/

theorem isEmpty_iff : b.isEmpty ↔ b = empty :=
  ⟨fun h => congrArg Buffer.mk (List.isEmpty_iff.1 h), fun h => h ▸ rfl⟩

theorem openNumber?_eq_none : b.openNumber? = none ↔ ∀ text, b.last? ≠ some (.number text) := by
  rw [Option.eq_none_iff_forall_ne_some]
  exact forall_congr' fun text => not_congr openNumber?_eq_some

theorem push_pop_of_last? (hlast : b.last? = some t) : b.pop.push t = b :=
  congrArg Buffer.mk (List.dropLast_append_getLast? t hlast)

theorem nextParen_eq_or (b : Buffer) (mode : ParenMode) :
    b.nextParen mode = .leftParen ∨ b.nextParen mode = .rightParen := by
  cases mode with
  | toggle | balanced =>
    simp only [nextParen]
    split
    · exact .inr rfl
    · exact .inl rfl

theorem paren_eq_rightParen_iff {closes : Prop} [Decidable closes] :
    (if closes then Token.rightParen else .leftParen) = .rightParen ↔ closes := by
  by_cases h : closes
  · exact iff_of_true (if_pos h) h
  · rw [if_neg h]
    exact iff_of_false (by decide) h

theorem nextParen_toggle_eq_rightParen : b.nextParen .toggle = .rightParen ↔
    (b.tokens.filter Token.isParen).getLast? = some .leftParen :=
  paren_eq_rightParen_iff

theorem nextParen_balanced_eq_rightParen :
    b.nextParen .balanced = .rightParen ↔ 0 < b.depth ∧ b.last?.any Token.endsOperand :=
  paren_eq_rightParen_iff

theorem nextParen_ne_number (text : String) : b.nextParen mode ≠ .number text := by
  rcases b.nextParen_eq_or mode with h | h
  · rw [h]; exact nofun
  · rw [h]; exact nofun

/-! ## What the operations append -/

theorem ok_push_eq_ok :
    (.ok (b.push t) : Except BufferError Buffer) = .ok b' ↔ b' = b.push t := by
  rw [Except.ok.injEq]
  exact eq_comm

theorem append_operator_eq_ok {op : Operator} : b.append (.operator op) = .ok b' ↔
    b' = b.push (.operator op) ∧ ∃ t, b.last? = some t ∧ t.endsOperand := by
  unfold append
  cases b.last? with
  | none => exact ⟨nofun, fun h => by obtain ⟨-, t, ht, -⟩ := h; cases ht⟩
  | some t =>
    cases t with
    | number | rightParen | percent =>
      rw [ok_push_eq_ok]
      exact ⟨fun h => ⟨h, _, rfl, rfl⟩, And.left⟩
    | operator | leftParen =>
      refine ⟨nofun, fun h => ?_⟩
      obtain ⟨-, t, ht, hends⟩ := h
      cases ht
      cases hends

theorem append_percent_eq_ok : b.append .percent = .ok b' ↔
    b' = b.push .percent ∧ ∃ t, b.last? = some t ∧ t.endsOperand ∧ t ≠ .percent := by
  unfold append
  cases b.last? with
  | none => exact ⟨nofun, fun h => by obtain ⟨-, t, ht, -⟩ := h; cases ht⟩
  | some t =>
    cases t with
    | number | rightParen =>
      rw [ok_push_eq_ok]
      exact ⟨fun h => ⟨h, _, rfl, rfl, nofun⟩, And.left⟩
    | operator | leftParen =>
      refine ⟨nofun, fun h => ?_⟩
      obtain ⟨-, t, ht, hends, -⟩ := h
      cases ht
      cases hends
    | percent =>
      refine ⟨nofun, fun h => ?_⟩
      obtain ⟨-, t, ht, -, hne⟩ := h
      cases ht
      exact absurd rfl hne

theorem admits_digit {opened : Option String} (hc : c.isDigit)
    (hopened : ∀ text, opened = some text → text.toList.count '.' ≤ 1) :
    admits opened (String.singleton c) := by
  have hminus : c ≠ '-' := fun h => absurd hc (h ▸ by decide)
  have hpoint : c ≠ '.' := fun h => absurd hc (h ▸ by decide)
  have hpoints : (opened.map fun s => s.toList.count '.').getD 0 ≤ 1 := by
    cases opened with
    | none => exact Nat.zero_le 1
    | some text => exact hopened text rfl
  simp [admits, hc, hpoint, hminus, hpoints]

theorem appendDigit_of_not_open (hopen : b.openNumber? = none) (hc : c.isDigit) :
    b.appendDigit c = b.push (.number (String.singleton c)) := by
  have hadmits : admits none (String.singleton c) := admits_digit hc fun _ h => nomatch h
  simp only [appendDigit, append, appendNumber, hopen, hadmits, if_true]

theorem appendDigit_of_open {text : String} (hopen : b.openNumber? = some text)
    (hc : c.isDigit) (hpoints : text.toList.count '.' ≤ 1) :
    b.appendDigit c = b.pop.push (.number (extend text (String.singleton c))) := by
  have hadmits : admits (some text) (String.singleton c) :=
    admits_digit hc fun _ h => Option.some.inj h ▸ hpoints
  simp only [appendDigit, append, appendNumber, hopen, hadmits, if_true]

theorem toList_extend_digit (text : String) (hc : c.isDigit) :
    (extend text (String.singleton c)).toList =
      if text.toList = ['0'] then [c] else text.toList ++ [c] := by
  have hzero : text = "0" ↔ text.toList = ['0'] := String.toList_inj.symm
  have hpoint : c ≠ '.' := fun h => absurd hc (h ▸ by decide)
  unfold extend
  by_cases h : text.toList = ['0']
  · simp [hzero, h, hpoint]
  · simp [hzero, h]

theorem appendPoint_of_not_open (hopen : b.openNumber? = none) :
    b.appendPoint = b.push (.number "0.") := by
  simp only [appendPoint, hopen]

theorem appendPoint_of_open {text : String} (hopen : b.openNumber? = some text) :
    b.appendPoint =
      if '.' ∈ text.toList then b else b.pop.push (.number (text.push '.')) := by
  simp only [appendPoint, hopen]

/-! ## What was typed stays typed -/

theorem Entered.pop (h : b.Entered mode) : b.pop.Entered mode := by
  cases h with
  | empty => exact .empty
  | push h _ =>
    rw [pop_push]
    exact h

theorem Entered.accepts_last (h : b.Entered mode) (hlast : b.last? = some t) :
    b.pop.Accepts mode t := by
  cases h with
  | empty => cases hlast
  | push _ ht =>
    rw [last?_push, Option.some.injEq] at hlast
    rw [pop_push, ← hlast]
    exact ht

theorem Entered.of_prefix (h : b.Entered mode) {front : List Token} (hfront : front <+: b.tokens) :
    (Buffer.mk front).Entered mode := by
  induction h with
  | empty =>
    rw [List.prefix_nil.1 hfront]
    exact .empty
  | push h ht ih =>
    rw [tokens_push, List.prefix_concat_iff] at hfront
    rcases hfront with rfl | hfront
    · exact h.push ht
    · exact ih hfront

/-- Every token of a buffer was admissible after the tokens before it. -/
theorem Entered.accepts (h : b.Entered mode) {front rest : List Token}
    (hb : b.tokens = front ++ t :: rest) : (Buffer.mk front).Accepts mode t := by
  have hentered : ((Buffer.mk front).push t).Entered mode :=
    h.of_prefix ⟨rest, by rw [hb, List.append_assoc, List.singleton_append]⟩
  have haccepts := hentered.accepts_last (last?_push _ _)
  rwa [pop_push] at haccepts

/-- The two ways in which a number has come to stand where it stands. -/
theorem Entered.number (h : b.Entered mode) {text : String}
    (hopen : b.openNumber? = some text) :
    b.pop.openNumber? = none ∧ Canonical text.toList ∨
      b.pop.isEmpty ∧ ∃ cs, text.toList = '-' :: cs ∧ Numeral cs := by
  cases h.accepts_last (openNumber?_eq_some.1 hopen) with
  | number hopen' htext => exact .inl ⟨hopen', htext⟩
  | signed hb htext hcs => exact .inr ⟨hb, _, htext, hcs⟩
  | paren ht => exact absurd ht (nextParen_ne_number text)

theorem Entered.count_point_le_one (h : b.Entered mode) {text : String}
    (hopen : b.openNumber? = some text) : text.toList.count '.' ≤ 1 := by
  rcases h.number hopen with ⟨-, htext⟩ | ⟨-, cs, htext, hcs⟩
  · exact htext.numeral.count_point_le_one
  · rw [htext, List.count_cons_of_ne (by decide)]
    exact hcs.count_point_le_one

/-- A number may be changed into one that is as well formed. -/
theorem Entered.retype (h : b.Entered mode) {text text' : String}
    (hopen : b.openNumber? = some text)
    (hcanonical : Canonical text.toList → Canonical text'.toList)
    (hsigned : ∀ cs, text.toList = '-' :: cs → Numeral cs →
      ∃ cs', text'.toList = '-' :: cs' ∧ Numeral cs') :
    (b.pop.push (.number text')).Entered mode := by
  refine h.pop.push ?_
  rcases h.number hopen with ⟨hopen', htext⟩ | ⟨hb, cs, htext, hcs⟩
  · exact .number hopen' (hcanonical htext)
  · obtain ⟨cs', htext', hcs'⟩ := hsigned cs htext hcs
    exact .signed hb htext' hcs'

theorem Entered.appendDigit (h : b.Entered mode) (hc : c.isDigit) :
    (b.appendDigit c).Entered mode := by
  cases hopen : b.openNumber? with
  | none =>
    rw [appendDigit_of_not_open hopen hc]
    refine h.push (.number hopen ?_)
    rw [String.toList_singleton]
    exact .digit hc
  | some text =>
    rw [appendDigit_of_open hopen hc (h.count_point_le_one hopen)]
    refine h.retype hopen (fun htext => ?_) fun cs htext hcs => ⟨cs ++ [c], ?_, ?_⟩
    · rw [toList_extend_digit text hc]
      split
      · exact .digit hc
      · next hzero => exact htext.append_digit hc hzero
    · have hzero : ¬ text.toList = ['0'] := fun hzero => by
        rw [htext] at hzero
        cases hzero
      rw [toList_extend_digit text hc, if_neg hzero, htext]
      rfl
    · exact hcs.append_digit hc

theorem Entered.appendPoint (h : b.Entered mode) : b.appendPoint.Entered mode := by
  cases hopen : b.openNumber? with
  | none =>
    rw [appendPoint_of_not_open hopen]
    refine h.push (.number hopen ?_)
    exact (Canonical.digit (c := '0') (by decide)).append_point (by decide)
  | some text =>
    rw [appendPoint_of_open hopen]
    split
    · exact h
    · next hp =>
      refine h.retype hopen (fun htext => ?_) fun cs htext hcs => ⟨cs ++ ['.'], ?_, ?_⟩
      · rw [String.toList_push]
        exact htext.append_point hp
      · rw [String.toList_push, htext]
        rfl
      · refine hcs.append_point fun hmem => hp ?_
        rw [htext]
        exact List.mem_cons_of_mem _ hmem

theorem Entered.append_operator (h : b.Entered mode) {op : Operator}
    (hb' : b.append (.operator op) = .ok b') : b'.Entered mode := by
  obtain ⟨rfl, t, hlast, ht⟩ := append_operator_eq_ok.1 hb'
  exact h.push (.operator hlast ht)

theorem Entered.append_percent (h : b.Entered mode) (hb' : b.append .percent = .ok b') :
    b'.Entered mode := by
  obtain ⟨rfl, t, hlast, ht, hne⟩ := append_percent_eq_ok.1 hb'
  exact h.push (.percent hlast ht hne)

theorem Entered.appendParen (h : b.Entered mode) : (b.appendParen mode).Entered mode :=
  h.push (.paren rfl)

theorem Entered.backspace (h : b.Entered mode) : b.backspace.Entered mode := by
  unfold Buffer.backspace
  cases hopen : b.openNumber? with
  | none => exact h.pop
  | some text =>
    simp only
    split
    · exact h.pop
    · next hshorter =>
      rw [not_or] at hshorter
      obtain ⟨hne, hsign⟩ := hshorter
      obtain ⟨last, hlast⟩ : ∃ last, text.toList = text.toList.dropLast ++ [last] := by
        have htext : text.toList ≠ [] := fun h => hne (by rw [h]; rfl)
        exact ⟨_, (List.dropLast_concat_getLast htext).symm⟩
      refine h.retype hopen (fun htext => ?_) fun cs htext hcs => ?_
      · rw [String.toList_ofList]
        rw [hlast] at htext
        exact htext.of_append_singleton hne
      · rw [String.toList_ofList]
        rcases List.eq_nil_or_concat cs with rfl | ⟨cs', x, rfl⟩
        · exact absurd rfl hcs.ne_nil
        · rw [List.concat_eq_append] at htext hcs
          rw [htext, ← List.cons_append, List.dropLast_concat] at hsign ⊢
          refine ⟨cs', rfl, hcs.of_append_singleton fun hnil => hsign ?_⟩
          rw [hnil]

theorem entered_seeded {text : String}
    (htext : Canonical text.toList ∨ ∃ cs, text.toList = '-' :: cs ∧ Canonical cs) :
    (seeded text).Entered mode := by
  refine Entered.push (b := empty) .empty ?_
  rcases htext with htext | ⟨cs, htext, hcs⟩
  · exact .number rfl htext
  · exact .signed rfl htext hcs.numeral

/-! ## Numbers that were typed can be read -/

theorem Accepts.isSome_read? {text : String} (h : b.Accepts mode (.number text)) :
    (Literal.read? text.toList).isSome := by
  cases h with
  | number _ htext => exact htext.numeral.isSome_read?
  | signed _ htext hcs =>
    rw [htext]
    exact hcs.isSome_unsigned? true
  | paren ht => exact absurd ht (nextParen_ne_number text)

theorem Entered.isSome_read? (h : b.Entered mode) {text : String}
    (hmem : .number text ∈ b.tokens) : (Literal.read? text.toList).isSome := by
  induction h with
  | empty => cases hmem
  | push _ ht ih =>
    rcases List.mem_append.1 hmem with hmem | hmem
    · exact ih hmem
    · obtain rfl := List.mem_singleton.1 hmem
      exact ht.isSome_read?

/-! ## The characters on the display -/

/-- The characters that an expression is shown with. -/
def alphabet : List Char := "0123456789.-+×÷()%".toList

theorem mem_alphabet_of_isDigit (hc : c.isDigit) : c ∈ alphabet := by
  obtain ⟨n, rfl⟩ := exists_eq_digitChar hc
  revert n
  decide

theorem Accepts.mem_alphabet (h : b.Accepts mode t) (hc : c ∈ t.chars) : c ∈ alphabet := by
  have hnumeral : ∀ {cs : List Char}, Numeral cs → c ∈ cs → c ∈ alphabet := by
    intro cs hcs hmem
    rcases hcs.isDigit_or_point hmem with hdigit | rfl
    · exact mem_alphabet_of_isDigit hdigit
    · decide
  cases h with
  | number _ htext => exact hnumeral htext.numeral hc
  | signed _ htext hcs =>
    change c ∈ String.toList _ at hc
    rw [htext] at hc
    rcases List.mem_cons.1 hc with rfl | hc
    · decide
    · exact hnumeral hcs hc
  | @operator op =>
    obtain rfl : c = op.glyph := List.mem_singleton.1 hc
    cases op <;> decide
  | percent =>
    obtain rfl : c = '%' := List.mem_singleton.1 hc
    decide
  | paren ht =>
    rcases b.nextParen_eq_or mode with h | h
    · obtain rfl : t = .leftParen := ht.symm.trans h
      obtain rfl : c = '(' := List.mem_singleton.1 hc
      decide
    · obtain rfl : t = .rightParen := ht.symm.trans h
      obtain rfl : c = ')' := List.mem_singleton.1 hc
      decide

theorem chars_push : (b.push t).tokens.flatMap Token.chars =
    b.tokens.flatMap Token.chars ++ t.chars := by
  rw [tokens_push, List.flatMap_append, List.flatMap_singleton]

theorem Entered.mem_alphabet (h : b.Entered mode) (hc : c ∈ b.tokens.flatMap Token.chars) :
    c ∈ alphabet := by
  induction h with
  | empty => cases hc
  | push _ ht ih =>
    rw [chars_push] at hc
    rcases List.mem_append.1 hc with hc | hc
    · exact ih hc
    · exact ht.mem_alphabet hc

theorem Accepts.chars_ne_nil (h : b.Accepts mode t) : t.chars ≠ [] := by
  cases h with
  | number _ htext => exact htext.numeral.ne_nil
  | signed _ htext _ =>
    show String.toList _ ≠ []
    rw [htext]
    exact List.cons_ne_nil _ _
  | operator | percent => exact List.cons_ne_nil _ _
  | paren ht =>
    rcases b.nextParen_eq_or mode with hnext | hnext
    · obtain rfl : t = .leftParen := ht.symm.trans hnext
      exact List.cons_ne_nil _ _
    · obtain rfl : t = .rightParen := ht.symm.trans hnext
      exact List.cons_ne_nil _ _

theorem Entered.chars_ne_nil (h : b.Entered mode) (hb : ¬ b.isEmpty) :
    b.tokens.flatMap Token.chars ≠ [] := by
  cases h with
  | empty => exact absurd rfl hb
  | push _ ht =>
    rw [chars_push]
    exact List.append_ne_nil_of_right_ne_nil _ ht.chars_ne_nil

theorem toList_render (hb : ¬ b.isEmpty) : b.render.toList = b.tokens.flatMap Token.chars := by
  unfold render
  rw [if_neg hb, String.toList_ofList]

theorem Entered.mem_alphabet_of_render (h : b.Entered mode) (hc : c ∈ b.render.toList) :
    c ∈ alphabet := by
  by_cases hb : b.isEmpty
  · unfold render at hc
    rw [if_pos hb] at hc
    obtain rfl : c = '0' := List.mem_singleton.1 hc
    decide
  · rw [toList_render hb] at hc
    exact h.mem_alphabet hc

end Buffer
end PocketCalc
