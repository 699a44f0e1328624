import Mathlib.Data.List.Chain
import PocketCalc.Proofs.Buffer.Entry

/-!
# The rules of entry

`Orderly` states the rules that the neighbours in a buffer keep, whatever the texts of its numbers
are.  A token keeps them if it fits after the last one (`orderly_push`), and every operation on a
buffer makes one of a few changes at its end (`Changed`), so the rules hold after any of them.
What `append` refuses is exactly what would break a rule, and number text that is not
`Admissible`.
-/

namespace PocketCalc

namespace Token

def isNumber : Token → Bool
  | number _ => true
  | _ => false

/-- Whether a token may stand after `before`, or at the beginning. -/
def FitsAfter (before : Option Token) (t : Token) : Prop :=
  match before with
  | none => ¬ t.isOperator ∧ t ≠ .percent
  | some u =>
    (t.isOperator → ¬ u.isOperator ∧ u ≠ .leftParen) ∧
    (t = .percent → u.isNumber ∨ u = .rightParen) ∧ ¬ (u.isNumber ∧ t.isNumber)

variable {before : Option Token} {t : Token}

theorem operator_fitsAfter {op : Operator} :
    (operator op).FitsAfter before ↔ ∃ u, before = some u ∧ u.endsOperand := by
  cases before with
  | none => simp [FitsAfter, isOperator]
  | some u => cases u <;> simp [FitsAfter, isOperator, isNumber, endsOperand]

theorem percent_fitsAfter :
    percent.FitsAfter before ↔ ∃ u, before = some u ∧ u.endsOperand ∧ u ≠ .percent := by
  cases before with
  | none => simp [FitsAfter]
  | some u => cases u <;> simp [FitsAfter, isOperator, isNumber, endsOperand]

theorem number_fitsAfter {text : String} :
    (number text).FitsAfter before ↔ ∀ s, before ≠ some (.number s) := by
  cases before with
  | none => simp [FitsAfter, isOperator]
  | some u => cases u <;> simp [FitsAfter, isOperator, isNumber]

theorem paren_fitsAfter (ht : t.isParen) : t.FitsAfter before := by
  cases t with
  | leftParen | rightParen => cases before <;> simp [FitsAfter, isOperator, isNumber]
  | number | operator | percent => cases ht

end Token

namespace Buffer

/-- The rules of entry. -/
structure Orderly (b : Buffer) : Prop where
  /-- Neither an operator nor a percent sign comes first. -/
  first : ∀ t, b.tokens.head? = some t → ¬ t.isOperator ∧ t ≠ .percent
  /-- No operator follows another one or an opening parenthesis. -/
  operators : b.tokens.IsChain fun t u => u.isOperator → ¬ t.isOperator ∧ t ≠ .leftParen
  /-- A percent sign follows a number or a closing parenthesis. -/
  percents : b.tokens.IsChain fun t u => u = .percent → t.isNumber ∨ t = .rightParen
  /-- No number follows another one. -/
  numbers : b.tokens.IsChain fun t u => ¬ (t.isNumber ∧ u.isNumber)

/-- Digits and points, not empty, and with at most one point in the number that they make
together with the open one, if there is one. -/
def Continues (opened : Option String) (cs : List Char) : Prop :=
  cs ≠ [] ∧ (∀ c ∈ cs, c.isDigit ∨ c = '.') ∧
    cs.count '.' + (opened.getD "").toList.count '.' ≤ 1

/-- Number text that may be appended.  Only a new number may begin with a minus sign. -/
def Admissible (opened : Option String) (text : String) : Prop :=
  Continues opened text.toList ∨
    opened = none ∧ ∃ cs, text.toList = '-' :: cs ∧ Continues none cs

/-- What can be done with a buffer.  An operator is appended like any other token. -/
inductive Operation where
  | append (t : Token)
  | appendDigit (c : Char)
  | appendPoint
  | appendParen (mode : ParenMode)
  | backspace
  | clear

/-- The buffer after an operation.  A token that is refused leaves it as it is. -/
def perform (b : Buffer) : Operation → Buffer
  | .append t =>
    match b.append t with
    | .ok b' => b'
    | .error _ => b
  | .appendDigit c => b.appendDigit c
  | .appendPoint => b.appendPoint
  | .appendParen mode => b.appendParen mode
  | .backspace => b.backspace
  | .clear => empty

/-- The changes that operations make to a buffer. -/
inductive Changed (b : Buffer) : Buffer → Prop
  | kept : Changed b b
  | pushed {t : Token} (ht : t.FitsAfter b.last?) : Changed b (b.push t)
  | retyped {text : String} (hopen : b.openNumber? = some text) (text' : String) :
    Changed b (b.pop.push (.number text'))
  | popped : Changed b b.pop
  | cleared : Changed b empty

variable {b b' : Buffer} {t : Token}

/-! ## Changes keep the rules -/

theorem orderly_empty : empty.Orderly where
  first _ h := nomatch h
  operators := .nil
  percents := .nil
  numbers := .nil

theorem isChain_tokens_push {R : Token → Token → Prop} :
    (b.push t).tokens.IsChain R ↔ b.tokens.IsChain R ∧ ∀ u, b.last? = some u → R u t := by
  rw [tokens_push, List.isChain_append]
  refine and_congr_right fun _ => ⟨fun h u hu => h.2 u hu t rfl, fun h => ?_⟩
  refine ⟨List.isChain_singleton t, fun u hu v hv => ?_⟩
  obtain rfl := Option.some.inj hv
  exact h u hu

theorem head?_tokens_push (b : Buffer) (t : Token) :
    (b.push t).tokens.head? = b.tokens.head?.or (some t) := List.head?_append

/-- A token keeps the rules if it fits after the last one. -/
theorem orderly_push : (b.push t).Orderly ↔ b.Orderly ∧ t.FitsAfter b.last? := by
  constructor
  · rintro ⟨hfirst, hoperators, hpercents, hnumbers⟩
    obtain ⟨hoperators, hoperator⟩ := isChain_tokens_push.1 hoperators
    obtain ⟨hpercents, hpercent⟩ := isChain_tokens_push.1 hpercents
    obtain ⟨hnumbers, hnumber⟩ := isChain_tokens_push.1 hnumbers
    rw [head?_tokens_push] at hfirst
    refine ⟨⟨fun u hu => hfirst u (by rw [hu]; rfl), hoperators, hpercents, hnumbers⟩, ?_⟩
    cases hlast : b.last? with
    | none =>
      refine hfirst t ?_
      rw [List.getLast?_eq_none_iff.1 hlast]
      rfl
    | some u => exact ⟨hoperator u hlast, hpercent u hlast, hnumber u hlast⟩
  · rintro ⟨h, ht⟩
    refine ⟨fun u hu => ?_, ?_, ?_, ?_⟩
    · rw [head?_tokens_push] at hu
      cases hhead : b.tokens.head? with
      | some v =>
        rw [hhead] at hu
        exact h.first u (hhead.trans hu)
      | none =>
        rw [hhead] at hu
        obtain rfl := Option.some.inj hu
        rwa [last?, List.head?_eq_none_iff.1 hhead] at ht
    · exact isChain_tokens_push.2 ⟨h.operators, fun u hu => (hu ▸ ht : t.FitsAfter (some u)).1⟩
    · exact isChain_tokens_push.2 ⟨h.percents, fun u hu => (hu ▸ ht : t.FitsAfter (some u)).2.1⟩
    · exact isChain_tokens_push.2 ⟨h.numbers, fun u hu => (hu ▸ ht : t.FitsAfter (some u)).2.2⟩

theorem Orderly.pop (h : b.Orderly) : b.pop.Orderly := by
  cases hlast : b.last? with
  | none =>
    have hempty : b = empty := congrArg Buffer.mk (List.getLast?_eq_none_iff.1 hlast)
    rw [hempty]
    exact orderly_empty
  | some t =>
    rw [← push_pop_of_last? hlast] at h
    exact (orderly_push.1 h).1

/-- The rules do not look at the text of a number. -/
theorem Orderly.retype (h : b.Orderly) {text : String} (hopen : b.openNumber? = some text)
    (text' : String) : (b.pop.push (.number text')).Orderly := by
  rw [← push_pop_of_last? (openNumber?_eq_some.1 hopen)] at h
  obtain ⟨hpop, hfits⟩ := orderly_push.1 h
  exact orderly_push.2 ⟨hpop, Token.number_fitsAfter.2 (Token.number_fitsAfter.1 hfits)⟩

theorem Orderly.changed (h : b.Orderly) (hb' : b.Changed b') : b'.Orderly := by
  cases hb' with
  | kept => exact h
  | pushed ht => exact orderly_push.2 ⟨h, ht⟩
  | retyped hopen text' => exact h.retype hopen text'
  | popped => exact h.pop
  | cleared => exact orderly_empty

/-! ## Operations are such changes -/

theorem number_fitsAfter_of_not_open (hopen : b.openNumber? = none) (text : String) :
    (Token.number text).FitsAfter b.last? :=
  Token.number_fitsAfter.2 (openNumber?_eq_none.1 hopen)

theorem changed_appendNumber {text : String} (h : b.appendNumber text = .ok b') :
    b.Changed b' := by
  unfold appendNumber at h
  split at h
  · cases hopen : b.openNumber? with
    | none =>
      rw [hopen] at h
      obtain rfl := Except.ok.inj h
      exact .pushed (number_fitsAfter_of_not_open hopen text)
    | some opened =>
      rw [hopen] at h
      obtain rfl := Except.ok.inj h
      exact .retyped hopen _
  · cases h

theorem changed_append (h : b.append t = .ok b') : b.Changed b' := by
  cases t with
  | number text => exact changed_appendNumber h
  | operator op =>
    obtain ⟨rfl, hlast⟩ := append_operator_eq_ok.1 h
    exact .pushed (Token.operator_fitsAfter.2 hlast)
  | percent =>
    obtain ⟨rfl, hlast⟩ := append_percent_eq_ok.1 h
    exact .pushed (Token.percent_fitsAfter.2 hlast)
  | leftParen | rightParen =>
    obtain rfl := Except.ok.inj h
    exact .pushed (Token.paren_fitsAfter rfl)

theorem changed_appendDigit (b : Buffer) (c : Char) : b.Changed (b.appendDigit c) := by
  unfold appendDigit
  split
  · next h => exact changed_append h
  · exact .kept

theorem changed_appendPoint (b : Buffer) : b.Changed b.appendPoint := by
  cases hopen : b.openNumber? with
  | none =>
    rw [appendPoint_of_not_open hopen]
    exact .pushed (number_fitsAfter_of_not_open hopen _)
  | some text =>
    rw [appendPoint_of_open hopen]
    split
    · exact .kept
    · exact .retyped hopen _

theorem changed_appendParen (b : Buffer) (mode : ParenMode) : b.Changed (b.appendParen mode) := by
  refine .pushed (Token.paren_fitsAfter ?_)
  rcases b.nextParen_eq_or mode with h | h
  · rw [h]
    rfl
  · rw [h]
    rfl

theorem changed_backspace (b : Buffer) : b.Changed b.backspace := by
  unfold backspace
  cases hopen : b.openNumber? with
  | none => exact .popped
  | some text =>
    simp only
    split
    · exact .popped
    · exact .retyped hopen _

theorem changed_perform (b : Buffer) (o : Operation) : b.Changed (b.perform o) := by
  cases o with
  | append t =>
    simp only [perform]
    split
    · next h => exact changed_append h
    · exact .kept
  | appendDigit c => exact changed_appendDigit b c
  | appendPoint => exact changed_appendPoint b
  | appendParen mode => exact changed_appendParen b mode
  | backspace => exact changed_backspace b
  | clear => exact .cleared

theorem Orderly.foldl_perform (h : b.Orderly) (os : List Operation) :
    (os.foldl perform b).Orderly := by
  induction os generalizing b with
  | nil => exact h
  | cons o os ih => exact ih (h.changed (changed_perform b o))

/-! ## What is refused -/

theorem exists_eq_error_iff {ε α : Type} {r : Except ε α} :
    (∃ e, r = .error e) ↔ ¬ ∃ x, r = .ok x := by
  cases r with
  | ok x => exact ⟨fun ⟨e, h⟩ => (nomatch h), fun h => absurd ⟨x, rfl⟩ h⟩
  | error e => exact ⟨fun _ ⟨x, h⟩ => (nomatch h), fun _ => ⟨e, rfl⟩⟩

/-- An operator or a percent sign is refused where it does not fit. -/
theorem append_eq_error_iff (ht : t.isOperator ∨ t = .percent) :
    (∃ e, b.append t = .error e) ↔ ¬ t.FitsAfter b.last? := by
  rw [exists_eq_error_iff, not_iff_not]
  cases t with
  | operator op =>
    rw [Token.operator_fitsAfter]
    exact ⟨fun ⟨_, h⟩ => (append_operator_eq_ok.1 h).2,
      fun h => ⟨_, append_operator_eq_ok.2 ⟨rfl, h⟩⟩⟩
  | percent =>
    rw [Token.percent_fitsAfter]
    exact ⟨fun ⟨_, h⟩ => (append_percent_eq_ok.1 h).2,
      fun h => ⟨_, append_percent_eq_ok.2 ⟨rfl, h⟩⟩⟩
  | number | leftParen | rightParen => simp [Token.isOperator] at ht

theorem admits_of_unsigned {opened : Option String} {text : String}
    (h : ∀ cs, opened = none → text.toList ≠ '-' :: cs) :
    admits opened text ↔ Continues opened text.toList := by
  cases opened with
  | some opened => simp [admits, Continues, and_assoc]
  | none =>
    unfold admits
    split
    · next cs _ hcs => exact absurd hcs (h cs rfl)
    · simp [Continues, and_assoc]

theorem admits_of_signed {text : String} {cs : List Char} (h : text.toList = '-' :: cs) :
    admits none text ↔ Continues none cs := by
  simp [admits, h, Continues, and_assoc]

theorem Continues.ne_minus {opened : Option String} {cs : List Char} (h : Continues opened cs)
    (rest : List Char) : cs ≠ '-' :: rest := by
  rintro rfl
  exact absurd (h.2.1 '-' List.mem_cons_self) (by decide)

theorem admits_iff {opened : Option String} {text : String} :
    admits opened text ↔ Admissible opened text := by
  unfold Admissible
  by_cases hsigned : opened = none ∧ ∃ cs, text.toList = '-' :: cs
  · obtain ⟨rfl, cs, hcs⟩ := hsigned
    rw [admits_of_signed hcs]
    refine ⟨fun h => .inr ⟨rfl, cs, hcs, h⟩, fun h => ?_⟩
    rcases h with h | ⟨-, cs', hcs', h⟩
    · exact absurd hcs (h.ne_minus cs)
    · obtain ⟨-, rfl⟩ := List.cons.inj (hcs.symm.trans hcs')
      exact h
  · rw [admits_of_unsigned fun cs hopened hcs => hsigned ⟨hopened, cs, hcs⟩]
    refine ⟨.inl, fun h => ?_⟩
    rcases h with h | ⟨hopened, cs, hcs, -⟩
    · exact h
    · exact absurd ⟨hopened, cs, hcs⟩ hsigned

theorem appendNumber_eq_error_iff {text : String} :
    (∃ e, b.appendNumber text = .error e) ↔ ¬ Admissible b.openNumber? text := by
  rw [← admits_iff, exists_eq_error_iff, not_iff_not]
  unfold appendNumber
  split
  · next h =>
    refine iff_of_true ?_ h
    cases b.openNumber? with
    | none | some => exact ⟨_, rfl⟩
  · next h => exact iff_of_false (fun ⟨_, h⟩ => nomatch h) h

theorem append_paren (ht : t.isParen) : b.append t = .ok (b.push t) := by
  cases t with
  | leftParen | rightParen => rfl
  | number | operator | percent => cases ht

/-- After any operations on an empty buffer or on one that holds a single number, whatever its
text, the rules of entry hold.  An operator or a percent sign is refused exactly where it would
break one of them, number text exactly if it is not admissible, and a parenthesis never.  A token
that is refused leaves the buffer as it is. -/
theorem orderly_of_operations {first : Buffer}
    (hfirst : first = empty ∨ ∃ text, first = seeded text) (os : List Operation) :
    let b := os.foldl perform first
    b.Orderly ∧
      (∀ t, t.isOperator ∨ t = .percent →
        ((∃ e, b.append t = .error e) ↔ ¬ (b.push t).Orderly)) ∧
      (∀ text, (∃ e, b.append (.number text) = .error e) ↔ ¬ Admissible b.openNumber? text) ∧
      (∀ t, t.isParen → b.append t = .ok (b.push t)) ∧
      ∀ t e, b.append t = .error e → b.perform (.append t) = b := by
  intro b
  have hstart : first.Orderly := by
    rcases hfirst with rfl | ⟨text, rfl⟩
    · exact orderly_empty
    · exact orderly_empty.changed (.pushed (number_fitsAfter_of_not_open rfl text))
  have hb : b.Orderly := hstart.foldl_perform os
  refine ⟨hb, fun t ht => ?_, fun text => appendNumber_eq_error_iff, fun t => append_paren, ?_⟩
  · rw [append_eq_error_iff ht, orderly_push, not_iff_not]
    exact (and_iff_right hb).symm
  · intro t e he
    simp only [perform, he]

/-- Starting with the text `..`, which no point and no digit can follow but an operator can. -/
theorem orderly_of_operations_twoPoints :
    let os : List Operation := [.appendDigit '.', .append (.operator .mul), .appendParen .toggle,
      .append (.number "-.5"), .appendDigit 'x', .append (.number "-1"), .append (.operator .sub),
      .backspace, .appendParen .balanced, .append .percent, .append .percent]
    let b := os.foldl perform (seeded "..")
    b.tokens = [.number "..", .operator .mul, .leftParen, .number "-.5", .rightParen, .percent] ∧
      b.Orderly ∧ (∃ e, b.append .percent = .error e) ∧ ¬ (b.push .percent).Orderly ∧
      (∃ e, b.append (.number "1-") = .error e) ∧ ∀ e, b.append (.number "-1.") ≠ .error e := by
  intro os b
  obtain ⟨horderly, hrefused, hnumber, -, -⟩ := orderly_of_operations (.inr ⟨"..", rfl⟩) os
  have hpercent : ∃ e, b.append .percent = .error e := ⟨.danglingPercent, by decide⟩
  have hsign : ¬ Admissible b.openNumber? "1-" := fun h => absurd (admits_iff.2 h) (by decide)
  have hpoint : Admissible b.openNumber? "-1." := admits_iff.1 (by decide)
  refine ⟨by decide, horderly, hpercent, (hrefused _ (.inr rfl)).1 hpercent,
    (hnumber _).2 hsign, fun e he => ?_⟩
  exact (hnumber _).1 ⟨e, he⟩ hpoint

end Buffer
end PocketCalc
