import PocketCalc.Proofs.Session.Recording

/-!
# What a key leaves alone

A refused key changes nothing at all, although the zero before a first operator, and the result
that an operator continues from, are put in place before the operator is tried: it is never
refused there (`append_operator_zero`, `pressOperator_resultShown`).  A failed evaluation
replaces what is shown and keeps the rest, and a successful one adds at most one entry to the
history.  All of this is read off the steps of a session by their outcomes.
-/

namespace PocketCalc
namespace Calculator

variable {c c' : Calculator} {now : Timestamp}

theorem eq_of_step_ignored (h : Step now c c' .ignored) : c' = c := by
  cases h with
  | refused => rfl

theorem eq_of_step_failed {e : EvalError} (h : Step now c c' (.failed e)) :
    c' = { c with mode := .error, error := some e, liveValue := none } := by
  cases h with
  | failed => rfl

/-- What an evaluation leaves alone, and its one entry in the history, for which a full history
forgets its oldest one. -/
structure Evaluated (now : Timestamp) (c c' : Calculator) (x : Float) : Prop where
  buffer_eq : c'.buffer = c.buffer
  historyOpen_eq : c'.historyOpen = c.historyOpen
  history_eq : c.mode = .resultShown ∧ c'.history = c.history ∨
    c.mode = .entering ∧ c'.history = { c.history with
      entries := (if c.history.isFull then c.history.entries.tail else c.history.entries) ++
        [⟨c.buffer.render, x, now⟩] }

theorem evaluated_of_step {x : Float} (hc : c.history.Bounded)
    (h : Step now c c' (.evaluated x)) : Evaluated now c c' x := by
  cases h with
  | recorded hmode _ => exact ⟨rfl, rfl, .inr ⟨hmode, hc.record_eq _⟩⟩
  | shownAgain hmode _ => exact ⟨rfl, rfl, .inl ⟨hmode, rfl⟩⟩

/-- A key or a line that is ignored and a symbol that stands for no key leave the calculator as
it is.  A failed evaluation changes the mode, the error and the live value only.  A successful
one keeps the buffer and the overlay, and the history but for the entry that it records. -/
theorem press_is_atomic (h : InUse c) (now : Timestamp) :
    (∀ key, (c.press now key).outcome = .ignored → (c.press now key).next = c) ∧
    (∀ line, (c.selectLine line).outcome = .ignored → (c.selectLine line).next = c) ∧
    (∀ symbol e, c.pressSymbol now symbol = .error e → c.act now (.pressSymbol symbol) = c) ∧
    (∀ key e, (c.press now key).outcome = .failed e →
      (c.press now key).next = { c with mode := .error, error := some e, liveValue := none }) ∧
    ∀ key x, (c.press now key).outcome = .evaluated x →
      Evaluated now c (c.press now key).next x := by
  have hpress : ∀ key o, (c.press now key).outcome = o → Step now c (c.press now key).next o :=
    fun key o ho => ho ▸ step_press c now key
  refine ⟨fun key ho => eq_of_step_ignored (hpress key _ ho), fun line ho => ?_,
    fun symbol e he => ?_, fun key e ho => eq_of_step_failed (hpress key _ ho),
    fun key x ho => evaluated_of_step (bounded_of_inUse h) (hpress key _ ho)⟩
  · have hstep := step_selectLine c now line
    rw [ho] at hstep
    exact eq_of_step_ignored hstep
  · simp only [act, Moments.first_always, he]

/-- With a history of one entry, after `1=`, the sum `1+2` takes the place of the entry.  The
division `1÷0` stays in the buffer when it fails, and a percent sign is then refused. -/
theorem press_is_atomic_limited :
    let now : Timestamp := ⟨2024, 1, 2, 3, 4, 5, by decide⟩
    let first := ofConfig { historyLimit := some 1 }
    let c := first.act now (.pressAll [.digit 1, .equals, .operator .add, .digit 2])
    let d := first.act now (.pressAll [.digit 1, .equals, .operator .div, .digit 0])
    (InUse c ∧ (c.press now .equals).outcome = .evaluated 3 ∧
      (c.press now .equals).next.history =
        { c.history with entries := [⟨"1+2", 3, now⟩] }) ∧
    InUse d ∧ (d.press now .equals).outcome = .failed .divisionByZero ∧
      (d.press now .equals).next =
        { d with mode := .error, error := some .divisionByZero, liveValue := none } ∧
      ((d.press now .equals).next.press now .percent).next = (d.press now .equals).next := by
  intro now first c d
  have hfirst : InUse first := inUse_ofConfig (by decide +kernel)
  have hc : InUse c := hfirst.act now _
  have hd : InUse d := hfirst.act now _
  have hfailed : InUse (d.press now .equals).next := hd.act now (.press .equals)
  obtain ⟨-, -, -, -, hevaluated⟩ := press_is_atomic hc now
  obtain ⟨-, -, -, hfails, -⟩ := press_is_atomic hd now
  obtain ⟨hignored, -⟩ := press_is_atomic hfailed now
  have hthree : (c.press now .equals).outcome = .evaluated 3 := by decide +kernel
  have hzero : (d.press now .equals).outcome = .failed .divisionByZero := by decide +kernel
  refine ⟨⟨hc, hthree, ?_⟩, hd, hzero, hfails _ _ hzero,
    hignored .percent (by decide +kernel)⟩
  rcases (hevaluated _ _ hthree).history_eq with ⟨hmode, -⟩ | ⟨-, hhistory⟩
  · exact absurd hmode (by decide +kernel)
  · rw [hhistory]
    decide +kernel

end Calculator
end PocketCalc
