import PocketCalc.Proofs.Evaluation.Reading
import PocketCalc.Proofs.Session.Step

/-!
# The modes of a calculator in use

The buffer, the live value, the error and the last result are brought up to date by
different keys, each of which leaves some of them as they were.  `Coherent` says what the
mode nevertheless tells about all of them.  It holds of a fresh calculator and every step
keeps it.
-/

namespace PocketCalc
namespace Calculator

/-- The raw value that the evaluator gives the expression in the buffer. -/
def rawValue (c : Calculator) : Except EvalError Float :=
  Evaluator.evaluate c.evaluatorLimit c.buffer.tokens

/-- A raw value as it is shown. -/
def shown (c : Calculator) (v : Float) : Float := Number.round v c.config.decimalPlaces.toNat

/-- What holds while an expression is being typed.  The live value of an expression
without a value may be that of an earlier one, so nothing is said of it. -/
structure Typing (c : Calculator) : Prop where
  error_eq : c.error = none
  liveValue_of_isEmpty : c.buffer.isEmpty → c.liveValue = none
  of_rawValue : ∀ v, c.rawValue = .ok v → c.liveValue = some (c.shown v) ∧
    ∀ now, (c.press now .equals).outcome = .evaluated (c.shown v)

/-- What holds while a result is shown. -/
structure Showing (c : Calculator) : Prop where
  buffer_ne : ¬ c.buffer.isEmpty
  error_eq : c.error = none
  result : ∃ x, c.lastResult = some x ∧ c.liveValue = some x

/-- What holds while an error is shown: it is the error of the expression still held. -/
structure Failing (c : Calculator) : Prop where
  buffer_ne : ¬ c.buffer.isEmpty
  liveValue_eq : c.liveValue = none
  error : ∃ e, c.error = some e ∧ c.rawValue = .error e

/-- The mode tells how the fields of a calculator go together. -/
structure Coherent (c : Calculator) : Prop where
  typing : c.mode = .entering → c.Typing
  showing : c.mode = .resultShown → c.Showing
  failing : c.mode = .error → c.Failing

/-! ## Values of buffers -/

theorem value_of_rawValue {c : Calculator} {v : Float} (h : c.rawValue = .ok v) :
    c.value = .ok (c.shown v) := congrArg (Except.map _) h

theorem value_eq_error {c : Calculator} {e : EvalError} :
    c.value = .error e ↔ c.rawValue = .error e := by
  show Except.map _ c.rawValue = .error e ↔ c.rawValue = .error e
  cases c.rawValue with
  | ok v => exact ⟨fun h => (nomatch h), fun h => (nomatch h)⟩
  | error f =>
    rw [Except.error.injEq]
    exact ⟨Except.error.inj, congrArg _⟩

theorem exists_tokens_of_rawValue {c : Calculator} {v : Float} (h : c.rawValue = .ok v) :
    ∃ e : Expression, c.buffer.tokens = e.tokens := by
  obtain ⟨e, he, -⟩ := Evaluator.exists_sentence_of_evaluate h
  exact ⟨e, he.derives.wellFormed.1.symm⟩

theorem buffer_ne_of_rawValue {c : Calculator} {v : Float} (h : c.rawValue = .ok v) :
    ¬ c.buffer.isEmpty := by
  obtain ⟨e, he⟩ := exists_tokens_of_rawValue h
  intro hempty
  exact e.tokens_ne_nil (he ▸ List.isEmpty_iff.1 hempty)

/-- An expression that ends in an operator has no value. -/
theorem rawValue_push_operator (c : Calculator) {b : Buffer} {op : Operator} {v : Float}
    (hb : c.buffer = b.push (.operator op)) : c.rawValue ≠ .ok v := by
  intro h
  obtain ⟨e, he⟩ := exists_tokens_of_rawValue h
  rw [hb, Buffer.tokens_push] at he
  refine e.getLast?_tokens_ne_operator op ?_
  rw [← he, List.getLast?_concat]

theorem outcome_press_equals {c : Calculator} {v : Float} (hmode : c.mode = .entering)
    (h : c.rawValue = .ok v) (now : Timestamp) :
    (c.press now .equals).outcome = .evaluated (c.shown v) := by
  show (c.pressEquals now).outcome = _
  rw [pressEquals_entering now hmode (buffer_ne_of_rawValue h) (value_of_rawValue h)]

/-! ## Every step keeps the modes coherent -/

section
variable {c : Calculator}

theorem coherent_of_typing (hmode : c.mode = .entering) (h : c.Typing) : Coherent c where
  typing _ := h
  showing hc := absurd (hmode.symm.trans hc) (by decide)
  failing hc := absurd (hmode.symm.trans hc) (by decide)

theorem coherent_of_showing (hmode : c.mode = .resultShown) (h : c.Showing) : Coherent c where
  typing hc := absurd (hmode.symm.trans hc) (by decide)
  showing _ := h
  failing hc := absurd (hmode.symm.trans hc) (by decide)

theorem coherent_of_failing (hmode : c.mode = .error) (h : c.Failing) : Coherent c where
  typing hc := absurd (hmode.symm.trans hc) (by decide)
  showing hc := absurd (hmode.symm.trans hc) (by decide)
  failing _ := h

theorem coherent_of_empty (hmode : c.mode = .entering) (herror : c.error = none)
    (hbuffer : c.buffer.isEmpty) (hlive : c.liveValue = none) : Coherent c := by
  refine coherent_of_typing hmode ⟨herror, fun _ => hlive, fun v hv => ?_⟩
  exact absurd hbuffer (buffer_ne_of_rawValue hv)

theorem coherent_edit (hmode : c.mode = .entering) (herror : c.error = none) (b : Buffer) :
    Coherent (c.edit b).next := by
  by_cases hb : b.isEmpty
  · rw [edit_empty c hb]
    exact coherent_of_empty hmode herror hb rfl
  · cases hraw : rawValue { c with buffer := b } with
    | ok v =>
      rw [edit_ok hb (value_of_rawValue hraw)]
      refine coherent_of_typing hmode ⟨herror, fun h => absurd h hb, fun w hw => ?_⟩
      obtain rfl : v = w := Except.ok.inj (hraw.symm.trans hw)
      exact ⟨rfl, outcome_press_equals hmode hw⟩
    | error e =>
      -- The live value is left over from an earlier expression, but nothing is asked of it.
      rw [edit_error hb (value_eq_error.2 hraw)]
      refine coherent_of_typing hmode ⟨herror, fun h => absurd h hb, fun v hv => ?_⟩
      exact nomatch hraw.symm.trans hv

theorem coherent_continued (x : Float) (op : Operator) :
    Coherent { c.restart with
      buffer := (Buffer.seeded (Number.format x)).push (.operator op), liveValue := some x } := by
  refine coherent_of_typing rfl ⟨rfl, fun h => (nomatch h), fun v hv => ?_⟩
  exact absurd hv (rawValue_push_operator _ rfl)

theorem coherent_load (x : Float) : Coherent (c.load x) :=
  coherent_of_showing rfl ⟨fun h => (nomatch h), rfl, x, rfl, rfl⟩

theorem coherent_overlaid (h : Coherent c) (isOpen : Bool) :
    Coherent { c with historyOpen := isOpen } where
  typing hmode := by
    obtain ⟨herror, hempty, hraw⟩ := h.typing hmode
    exact ⟨herror, hempty, fun v hv => ⟨(hraw v hv).1, outcome_press_equals hmode hv⟩⟩
  showing hmode := by
    obtain ⟨hb, herror, hresult⟩ := h.showing hmode
    exact ⟨hb, herror, hresult⟩
  failing hmode := by
    obtain ⟨hb, hlive, herror⟩ := h.failing hmode
    exact ⟨hb, hlive, herror⟩

theorem coherent_step {c' : Calculator} {now : Timestamp} {o : Outcome} (h : Coherent c)
    (hstep : Step now c c' o) : Coherent c' := by
  cases hstep with
  | refused => exact h
  | overlaid isOpen => exact coherent_overlaid h isOpen
  | typed hmode _ => exact coherent_edit hmode (h.typing hmode).error_eq _
  | begun _ _ => exact coherent_edit rfl rfl _
  | continued op _ _ => exact coherent_continued _ op
  | restarted _ => exact coherent_of_empty rfl rfl rfl rfl
  | cleared => exact coherent_of_empty rfl rfl rfl rfl
  | recorded _ hx | shownAgain _ hx =>
    obtain ⟨v, hv, -⟩ := map_eq_ok.1 hx
    exact coherent_of_showing rfl ⟨buffer_ne_of_rawValue hv, rfl, _, rfl, rfl⟩
  | failed hmode hb he =>
    refine coherent_of_failing rfl ⟨?_, rfl, _, rfl, value_eq_error.1 he⟩
    cases hc : c.mode with
    | entering => exact hb hc
    | resultShown => exact (h.showing hc).buffer_ne
    | error => exact absurd hc hmode
  | selected _ => exact coherent_load _
  | read _ => exact coherent_load _

end

/-- In every calculator in use the mode tells how the other fields go together. -/
theorem coherent_of_inUse {c : Calculator} (h : InUse c) : Coherent c :=
  h.induction (fun _ _ => coherent_of_empty rfl rfl rfl rfl) coherent_step

/-- After `1÷0=` the error is that of the division. -/
theorem coherent_of_inUse_divisionByZero :
    let now : Timestamp := ⟨2024, 1, 2, 3, 4, 5, by decide⟩
    let c := new.act now (.pressAll [.digit 1, .operator .div, .digit 0, .equals])
    InUse c ∧ c.Failing ∧ c.error = some .divisionByZero := by
  intro now c
  have hc : InUse c := inUse_new.act now (.pressAll [.digit 1, .operator .div, .digit 0, .equals])
  exact ⟨hc, (coherent_of_inUse hc).failing (by decide +kernel), by decide +kernel⟩

end Calculator
end PocketCalc
