import PocketCalc.Calculator.View
import PocketCalc.Proofs.Evaluation.Unfinished
import PocketCalc.Proofs.Session.Keypad
import PocketCalc.Proofs.Session.Recording
import PocketCalc.Proofs.Session.Tidy

/-!
# The numbers in a buffer in use

Whatever was typed, deleted and picked, every number in the buffer is a numeral that can be read,
and only the first token may have a sign (`numbers_can_be_read`).  A number without a sign never
shows a zero in front of another digit.  One with a sign does so in a single way: the zero that
deleting has left of it, `-0`, does not give way to a digit (`tight_run_iff`).
-/

namespace PocketCalc

open Numeral (Canonical)

/-- A zero stands in front of another digit, at the beginning or after a minus sign. -/
inductive Padded : List Char → Prop
  | unsigned {c : Char} {rest : List Char} (hc : c.isDigit) : Padded ('0' :: c :: rest)
  | signed {c : Char} {rest : List Char} (hc : c.isDigit) : Padded ('-' :: '0' :: c :: rest)

theorem Numeral.Canonical.not_padded {cs : List Char} (h : Canonical cs) : ¬ Padded cs := by
  intro hpadded
  cases hpadded with
  | unsigned hc => exact h.not_zero_digit _ _ rfl hc
  | signed hc =>
    obtain ⟨c, rest, hcs, hdigit⟩ := h.numeral.exists_eq_cons
    cases hcs
    exact absurd hdigit (by decide)

theorem not_padded_format {x : Float} (hx : x.isFinite) : ¬ Padded (Number.format x).toList := by
  rcases Number.canonical_format hx with h | ⟨cs, hcs, h⟩
  · exact h.not_padded
  · rw [hcs]
    intro hpadded
    cases hpadded with
    | signed hc => exact h.not_zero_digit _ _ rfl hc

theorem Padded.append {cs : List Char} (h : Padded cs) (more : List Char) :
    Padded (cs ++ more) := by
  cases h with
  | unsigned hc => exact .unsigned hc
  | signed hc => exact .signed hc

/-- Only a digit after a lone zero makes a text padded that was not. -/
theorem Padded.of_append_singleton {cs : List Char} {x : Char} (h : Padded (cs ++ [x])) :
    Padded cs ∨ x.isDigit ∧ (cs = ['0'] ∨ cs = ['-', '0']) := by
  generalize hs : cs ++ [x] = s at h
  cases h with
  | unsigned hc =>
    match cs, hs with
    | [_], rfl => exact .inr ⟨hc, .inl rfl⟩
    | _ :: _ :: _, rfl => exact .inl (.unsigned hc)
  | signed hc =>
    match cs, hs with
    | [_, _], rfl => exact .inr ⟨hc, .inr rfl⟩
    | _ :: _ :: _ :: _, rfl => exact .inl (.signed hc)

namespace Buffer

variable {mode : ParenMode} {b b' : Buffer} {t : Token} {c : Char}

theorem Entered.canonical_or_signed (h : b.Entered mode) {front rest : List Token} {text : String}
    (hb : b.tokens = front ++ .number text :: rest) :
    Canonical text.toList ∨ front = [] ∧ ∃ cs, text.toList = '-' :: cs ∧ Numeral cs := by
  cases h.accepts hb with
  | number _ htext => exact .inl htext
  | signed hfront htext hcs => exact .inr ⟨List.isEmpty_iff.1 hfront, _, htext, hcs⟩
  | paren ht => exact absurd ht (nextParen_ne_number text)

/-- A number with a sign is all there is in the buffer while it is open. -/
theorem Entered.eq_seeded (h : b.Entered mode) {text : String} {cs : List Char}
    (hopen : b.openNumber? = some text) (htext : text.toList = '-' :: cs) : b = seeded text := by
  have hlast := push_pop_of_last? (openNumber?_eq_some.1 hopen)
  rcases h.number hopen with ⟨-, hcanonical⟩ | ⟨hpop, -⟩
  · obtain ⟨c, rest, hcons, hc⟩ := hcanonical.numeral.exists_eq_cons
    rw [htext] at hcons
    cases hcons
    exact absurd hc (by decide)
  · rw [← hlast, isEmpty_iff.1 hpop]
    rfl

/-! ## Superfluous zeros -/

/-- No number is shown with a zero in front of another digit. -/
def Tight (b : Buffer) : Prop := ∀ text, .number text ∈ b.tokens → ¬ Padded text.toList

theorem tight_empty : empty.Tight := fun _ h => absurd h List.not_mem_nil

theorem Tight.push (h : b.Tight) (ht : ∀ text, t = .number text → ¬ Padded text.toList) :
    (b.push t).Tight := by
  intro text hmem
  rcases List.mem_append.1 hmem with hmem | hmem
  · exact h text hmem
  · exact ht text (List.mem_singleton.1 hmem).symm

theorem Tight.push_number (h : b.Tight) {text : String} (htext : ¬ Padded text.toList) :
    (b.push (.number text)).Tight :=
  h.push fun _ heq => Token.number.inj heq ▸ htext

theorem Tight.pop (h : b.Tight) : b.pop.Tight :=
  fun text hmem => h text (List.dropLast_subset _ hmem)

theorem Tight.not_padded (h : b.Tight) {text : String} (hopen : b.openNumber? = some text) :
    ¬ Padded text.toList :=
  h text (List.mem_of_getLast? (openNumber?_eq_some.1 hopen))

theorem tight_format {x : Float} (hx : x.isFinite) : (seeded (Number.format x)).Tight :=
  tight_empty.push_number (not_padded_format hx)

/-- A digit makes a superfluous zero only if it follows `-0`. -/
theorem Tight.appendDigit (h : b.Tight) (hb : b.Entered mode) (hne : b ≠ seeded "-0")
    (hc : c.isDigit) : (b.appendDigit c).Tight := by
  have hdigit : ¬ Padded [c] := (Canonical.digit hc).not_padded
  cases hopen : b.openNumber? with
  | none =>
    rw [appendDigit_of_not_open hopen hc]
    refine h.push_number ?_
    rwa [String.toList_singleton]
  | some text =>
    rw [appendDigit_of_open hopen hc (hb.count_point_le_one hopen)]
    refine h.pop.push_number fun hpadded => ?_
    rw [toList_extend_digit text hc] at hpadded
    split at hpadded
    · exact hdigit hpadded
    · next hzero =>
      rcases hpadded.of_append_singleton with hold | ⟨-, hlone | hsigned⟩
      · exact h.not_padded hopen hold
      · exact hzero hlone
      · obtain rfl : text = "-0" := String.toList_inj.1 hsigned
        exact hne (hb.eq_seeded hopen hsigned)

theorem Tight.appendPoint (h : b.Tight) : b.appendPoint.Tight := by
  have hpoint : ¬ '.'.isDigit := by decide
  cases hopen : b.openNumber? with
  | none =>
    rw [appendPoint_of_not_open hopen]
    refine h.push_number fun hpadded => ?_
    cases hpadded with
    | unsigned hc => exact hpoint hc
  | some text =>
    rw [appendPoint_of_open hopen]
    split
    · exact h
    · refine h.pop.push_number fun hpadded => ?_
      rw [String.toList_push] at hpadded
      rcases hpadded.of_append_singleton with hold | ⟨hc, -⟩
      · exact h.not_padded hopen hold
      · exact hpoint hc

theorem Tight.append_operator (h : b.Tight) {op : Operator}
    (hb' : b.append (.operator op) = .ok b') : b'.Tight := by
  obtain ⟨rfl, -⟩ := append_operator_eq_ok.1 hb'
  exact h.push nofun

theorem Tight.append_percent (h : b.Tight) (hb' : b.append .percent = .ok b') : b'.Tight := by
  obtain ⟨rfl, -⟩ := append_percent_eq_ok.1 hb'
  exact h.push nofun

theorem Tight.appendParen (h : b.Tight) (mode : ParenMode) : (b.appendParen mode).Tight :=
  h.push fun text ht => absurd ht (nextParen_ne_number text)

theorem Tight.backspace (h : b.Tight) : b.backspace.Tight := by
  unfold Buffer.backspace
  cases hopen : b.openNumber? with
  | none => exact h.pop
  | some text =>
    simp only
    split
    · exact h.pop
    · refine h.pop.push_number fun hpadded => h.not_padded hopen ?_
      obtain ⟨more, hmore⟩ := List.dropLast_prefix text.toList
      rw [String.toList_ofList] at hpadded
      rw [← hmore]
      exact hpadded.append more

theorem Tight.edited (h : b.Tight) (hb : b.Entered mode) (hne : b ≠ seeded "-0")
    (hb' : b.Edited mode b') : b'.Tight := by
  cases hb' with
  | digit hc => exact h.appendDigit hb hne hc
  | point => exact h.appendPoint
  | operator hb' => exact h.append_operator hb'
  | firstOperator _ hb' => exact (h.appendDigit hb hne (by decide)).append_operator hb'
  | paren => exact h.appendParen mode
  | percent hb' => exact h.append_percent hb'
  | backspace => exact h.backspace

/-- The zero of `-0` does not give way to a digit. -/
theorem not_tight_appendDigit (hc : c.isDigit) : ¬ ((seeded "-0").appendDigit c).Tight := by
  have htext : (extend "-0" (String.singleton c)).toList = ['-', '0', c] :=
    toList_extend_digit "-0" hc
  have hopen : (seeded "-0").openNumber? = some "-0" := rfl
  rw [appendDigit_of_open hopen hc (by decide)]
  intro h
  refine h _ (List.mem_append_right _ List.mem_cons_self) ?_
  rw [htext]
  exact .signed hc

end Buffer

namespace Calculator

variable {c c' : Calculator} {now : Timestamp} {o : Outcome}

theorem tight_step (h : Tidy c) (ht : c.buffer.Tight)
    (hne : c.mode = .entering → c.buffer ≠ .seeded "-0") (hstep : Step now c c' o) :
    c'.buffer.Tight := by
  cases hstep with
  | refused | overlaid | recorded | shownAgain | failed => exact ht
  | typed hmode hb =>
    rw [buffer_edit]
    exact ht.edited h.buffer (hne hmode) hb
  | begun _ hb =>
    rw [buffer_edit]
    exact Buffer.tight_empty.edited .empty (by decide) hb.edited
  | continued op _ hlast => exact (Buffer.tight_format (h.lastResult _ hlast)).push nofun
  | restarted | cleared => exact Buffer.tight_empty
  | selected he => exact Buffer.tight_format (h.isFinite_of_get? he)
  | read hx => exact Buffer.tight_format hx

theorem buffer_pressEquals (c : Calculator) (now : Timestamp) :
    (c.pressEquals now).next.buffer = c.buffer := by
  unfold pressEquals
  cases c.mode with
  | entering =>
    simp only
    split
    · rfl
    · split
      · rfl
      · rfl
  | resultShown =>
    simp only
    split
    · rfl
    · rfl
  | error => rfl

/-- A key that types no digit makes no superfluous zero out of `-0`. -/
theorem tight_press_minusZero (h : Tidy c) (ht : c.buffer.Tight) (hmode : c.mode = .entering)
    (hb : c.buffer = .seeded "-0") {key : Key} (hkey : key.digitChar? = none) :
    (c.press now key).next.buffer.Tight := by
  have hkeyed : ∀ b, (Buffer.seeded "-0").keyed? c.config.parenMode key = some b → b.Tight →
      (c.press now key).next.buffer.Tight := by
    intro b hkeyed htight
    rw [← hb] at hkeyed
    rwa [press_of_keyed hmode hkeyed, buffer_edit]
  have hzero : (Buffer.seeded "-0").Tight := hb ▸ ht
  cases key with
  | digit n =>
    rw [next_press]
    simp only [handle, hkey]
    exact ht
  | decimalPoint => exact hkeyed _ rfl hzero.appendPoint
  | operator op => exact hkeyed _ rfl (hzero.append_operator rfl)
  | paren => exact hkeyed _ rfl (hzero.appendParen _)
  | percent => exact hkeyed _ rfl (hzero.append_percent rfl)
  | backspace => exact hkeyed _ rfl hzero.backspace
  | clear => exact Buffer.tight_empty
  | equals =>
    show (c.pressEquals now).next.buffer.Tight
    rwa [buffer_pressEquals]
  | openHistory | closeHistory => exact ht
  | selectHistory index =>
    show (c.selectEntry index).next.buffer.Tight
    cases he : c.history.get? index with
    | none =>
      simp only [selectEntry, he]
      exact ht
    | some e =>
      simp only [selectEntry, he]
      exact Buffer.tight_format (h.isFinite_of_get? he)

end Calculator

/-! ## Key presses of a run -/

/-- A key that was pressed, with the calculator before and after. -/
structure KeyPress where
  before : Calculator
  key : Key
  after : Calculator

/-- A digit was typed after nothing but a zero with a minus sign. -/
def KeyPress.PadsZero (p : KeyPress) : Prop :=
  p.before.mode = .entering ∧ p.before.buffer = .seeded "-0" ∧ p.key.digitChar?.isSome

instance (p : KeyPress) : Decidable p.PadsZero := inferInstanceAs (Decidable (_ ∧ _ ∧ _))

namespace Calculator

variable {c : Calculator}

/-- Keys pressed one after the other. -/
def pressed (c : Calculator) (times : Moments) : List Key → List KeyPress
  | [] => []
  | key :: keys =>
    let next := (c.press times.first key).next
    ⟨c, key, next⟩ :: next.pressed times.later keys

/-- All key presses of a run. -/
def presses (c : Calculator) : List (Moments × Action) → List KeyPress
  | [] => []
  | (times, a) :: rest => c.pressed times a.keys ++ (c.act times a).presses rest

theorem tight_press_iff (h : Tidy c) (ht : c.buffer.Tight) (now : Timestamp) (key : Key) :
    (c.press now key).next.buffer.Tight ↔
      ¬ (⟨c, key, (c.press now key).next⟩ : KeyPress).PadsZero := by
  constructor
  · rintro htight ⟨hmode, hb, hdigit⟩
    obtain ⟨d, hd⟩ := Option.isSome_iff_exists.1 hdigit
    have hkeyed : c.buffer.keyed? c.config.parenMode key = some (c.buffer.appendDigit d) := by
      cases key with
      | digit n => exact congrArg (Option.map _) hd
      | _ => cases hd
    rw [press_of_keyed hmode hkeyed, buffer_edit, show c.buffer = .seeded "-0" from hb] at htight
    exact Buffer.not_tight_appendDigit (isDigit_of_digitChar? hd) htight
  · intro hpads
    by_cases hzero : c.mode = .entering ∧ c.buffer = .seeded "-0"
    · refine tight_press_minusZero h ht hzero.1 hzero.2 ?_
      exact Option.not_isSome_iff_eq_none.1 fun hdigit => hpads ⟨hzero.1, hzero.2, hdigit⟩
    · exact tight_step h ht (fun hmode hb => hzero ⟨hmode, hb⟩) (step_press c now key)

theorem tight_pressed (h : Tidy c) (ht : c.buffer.Tight) (times : Moments) (keys : List Key) :
    ((∀ p ∈ c.pressed times keys, p.after.buffer.Tight) ↔
        ∀ p ∈ c.pressed times keys, ¬ p.PadsZero) ∧
      ((∀ p ∈ c.pressed times keys, p.after.buffer.Tight) →
        (c.pressAll times keys).1.buffer.Tight) := by
  induction keys generalizing c times with
  | nil => exact ⟨iff_of_true (List.forall_mem_nil _) (List.forall_mem_nil _), fun _ => ht⟩
  | cons key keys ih =>
    have hpress := tight_press_iff h ht times.first key
    have hnext : Tidy (c.press times.first key).next :=
      tidy_step h (step_press c times.first key)
    rw [pressed, List.forall_mem_cons, List.forall_mem_cons, pressAll_cons, ← hpress]
    refine ⟨and_congr_right fun htight => (ih hnext htight times.later).1, fun hall => ?_⟩
    exact (ih hnext hall.1 times.later).2 hall.2

theorem tight_act (h : Tidy c) (ht : c.buffer.Tight) (times : Moments) (a : Action)
    (hall : ∀ p ∈ c.pressed times a.keys, p.after.buffer.Tight) :
    (c.act times a).buffer.Tight := by
  have hkeys := (tight_pressed h ht times a.keys).2 hall
  cases a with
  | press key | pressAll keys => exact hkeys
  | pressSymbol symbol =>
    rw [act_pressSymbol]
    exact hkeys
  | selectLine line =>
    show (c.selectLine line).next.buffer.Tight
    unfold selectLine
    split
    · next hx => exact Buffer.tight_format (HistoryEntry.isFinite_of_parseResult hx)
    · exact ht
  | clear => exact Buffer.tight_empty

theorem tight_presses (h : Tidy c) (ht : c.buffer.Tight) (r : List (Moments × Action)) :
    ((∀ p ∈ c.presses r, p.after.buffer.Tight) ↔ ∀ p ∈ c.presses r, ¬ p.PadsZero) ∧
      ((∀ p ∈ c.presses r, p.after.buffer.Tight) → (c.run r).buffer.Tight) := by
  induction r generalizing c with
  | nil => exact ⟨iff_of_true (List.forall_mem_nil _) (List.forall_mem_nil _), fun _ => ht⟩
  | cons step rest ih =>
    obtain ⟨times, a⟩ := step
    have hkeys := (tight_pressed h ht times a.keys).1
    have hnext : Tidy (c.act times a) := tidy_act h times a
    rw [presses, List.forall_mem_append, List.forall_mem_append, ← hkeys, run]
    refine ⟨and_congr_right fun hall => (ih hnext (tight_act h ht times a hall)).1, fun hall => ?_⟩
    exact (ih hnext (tight_act h ht times a hall.1)).2 hall.2

/-- Along a run no superfluous zero is shown exactly if no digit is ever typed after a mere `-0`,
and then none is shown at its end.  Where one is shown, it is in the first token, after a minus
sign. -/
theorem tight_run_iff {first : Calculator} (hfirst : Fresh first)
    (r : List (Moments × Action)) :
    ((∀ p ∈ first.presses r, p.after.buffer.Tight) ↔ ∀ p ∈ first.presses r, ¬ p.PadsZero) ∧
    ((∀ p ∈ first.presses r, ¬ p.PadsZero) → (first.run r).buffer.Tight) ∧
    ∀ front text rest, (first.run r).buffer.tokens = front ++ .number text :: rest →
      Padded text.toList → front = [] ∧ ∃ cs, text.toList = '-' :: '0' :: cs := by
  have hinUse : InUse first := ⟨first, hfirst, .first⟩
  have hempty : first.buffer.Tight := by
    rw [hfirst.eq_ofConfig.2]
    exact Buffer.tight_empty
  obtain ⟨hiff, hlast⟩ := tight_presses (tidy_of_inUse hinUse) hempty r
  refine ⟨hiff, fun hall => hlast (hiff.2 hall), fun front text rest htokens hpadded => ?_⟩
  have hentered := (tidy_of_inUse (hinUse.run r)).buffer
  rcases hentered.canonical_or_signed htokens with htext | ⟨hfront, cs, hcs, -⟩
  · exact absurd hpadded htext.not_padded
  · refine ⟨hfront, ?_⟩
    rw [hcs] at hpadded ⊢
    cases hpadded with
    | signed => exact ⟨_, rfl⟩

/-- After the result -0.5 the digits are deleted up to its zero.  Then a point and a digit make
-0.7 of it. -/
theorem tight_run_iff_point :
    let now : Timestamp := ⟨2024, 1, 2, 3, 4, 5, by decide⟩
    let r : List (Moments × Action) := [
      (now, .pressAll [.operator .sub, .decimalPoint, .digit 5, .equals, .operator .add,
        .backspace, .backspace, .backspace]),
      (now, .pressAll [.decimalPoint, .digit 7])]
    Fresh new ∧ (∀ p ∈ new.presses r, ¬ p.PadsZero) ∧ (new.run r).buffer.tokens = [.number "-0.7"] ∧
      (new.run r).buffer.Tight := by
  intro now r
  have hnone : ∀ p ∈ new.presses r, ¬ p.PadsZero := by decide +kernel
  exact ⟨.new, hnone, by decide +kernel, (tight_run_iff .new r).2.1 hnone⟩

/-- The number `-05` is shown when a digit is typed at the same place. -/
theorem leading_zero_typed_after_minusZero :
    let now : Timestamp := ⟨2024, 1, 2, 3, 4, 5, by decide⟩
    let c := new.act now (.pressAll [.operator .sub, .decimalPoint, .digit 5, .equals,
      .operator .add, .backspace, .backspace, .backspace, .digit 5])
    InUse c ∧ c.buffer.tokens = [.number "-05"] ∧ c.view.expressionText = "-05" ∧
      ¬ c.buffer.Tight := by
  intro now c
  have htokens : c.buffer.tokens = [.number "-05"] := by decide +kernel
  refine ⟨inUse_new.act now _, htokens, by decide +kernel, fun h => h "-05" ?_ (.signed rfl)⟩
  rw [htokens]
  exact List.mem_cons_self

/-! ## Reading -/

theorem value_eq_of_failed {e : EvalError} {now : Timestamp}
    (h : (c.press now .equals).outcome = .failed e) : c.value = .error e := by
  have hstep := step_press c now .equals
  rw [h] at hstep
  generalize (c.press now .equals).next = c' at hstep
  cases hstep with
  | failed _ _ he => exact he

/-- Every number in the buffer of a calculator in use is a numeral, the first token perhaps with
a minus sign before it, and can be read.  So if the equals key reports a malformed expression, the
tokens have no tree, or one that nests too deep. -/
theorem numbers_can_be_read (h : InUse c) :
    (∀ front text rest, c.buffer.tokens = front ++ .number text :: rest →
      (Numeral text.toList ∨ front = [] ∧ ∃ cs, text.toList = '-' :: cs ∧ Numeral cs) ∧
        (Literal.read? text.toList).isSome) ∧
    ∀ now, (c.press now .equals).outcome = .failed .malformedExpression →
      ∀ e, Derives .expression c.buffer.tokens e → Evaluator.maxNesting < e.nesting := by
  have hentered := (tidy_of_inUse h).buffer
  refine ⟨fun front text rest htokens => ⟨?_, (hentered.accepts htokens).isSome_read?⟩, ?_⟩
  · exact (hentered.canonical_or_signed htokens).imp_left Numeral.Canonical.numeral
  · intro now hfailed e he
    refine Nat.lt_of_not_le fun hnesting => ?_
    obtain ⟨hwellFormed, htokens⟩ := derives_iff.1 he
    have hreadable : e.Readable := Expression.readable_iff.2 fun text hmem =>
      hentered.isSome_read? (htokens ▸ hmem)
    have hraw : c.rawValue = .error .malformedExpression :=
      value_eq_error.1 (value_eq_of_failed hfailed)
    rw [rawValue, ← htokens, Evaluator.evaluate_tokens _ hwellFormed hnesting] at hraw
    exact Expression.value_ne_malformed hreadable _ hraw

/-- In `-2×0.+`, which continues the result of `3-5`, both numbers can be read; what makes it
malformed is the operator at its end. -/
theorem numbers_can_be_read_trailing_operator :
    let now : Timestamp := ⟨2024, 1, 2, 3, 4, 5, by decide⟩
    let c := new.act now (.pressAll [.digit 3, .operator .sub, .digit 5, .equals, .operator .mul,
      .decimalPoint, .operator .add])
    InUse c ∧
      c.buffer.tokens = [.number "-2", .operator .mul, .number "0.", .operator .add] ∧
      (Literal.read? "-2".toList).isSome ∧ Numeral "0.".toList ∧
      (c.press now .equals).outcome = .failed .malformedExpression ∧
      ∀ e, Derives .expression c.buffer.tokens e → Evaluator.maxNesting < e.nesting := by
  intro now c
  have hc : InUse c := inUse_new.act now _
  have htokens : c.buffer.tokens = [.number "-2", .operator .mul, .number "0.", .operator .add] := by
    decide +kernel
  have hfailed : (c.press now .equals).outcome = .failed .malformedExpression := by decide +kernel
  obtain ⟨hnumber, hmalformed⟩ := numbers_can_be_read hc
  obtain ⟨-, hread⟩ := hnumber [] "-2" _ htokens
  obtain ⟨hnumeral | ⟨hfront, -⟩, -⟩ := hnumber [.number "-2", .operator .mul] "0." _ htokens
  · exact ⟨hc, htokens, hread, hnumeral, hfailed, hmalformed now hfailed⟩
  · cases hfront

end Calculator
end PocketCalc
