import PocketCalc.Proofs.Buffer.Entry
import PocketCalc.Proofs.Session.Reload

/-!
# Expressions of a calculator in use

Whatever the keys, lines and selections before, the buffer of a calculator is one that can be
built up token by token (`Buffer.Entered`), and every entry of its history is the computation of
such a buffer.  Results come back into the buffer as text, which is why the last result has to
be finite for this to go through.
-/

namespace PocketCalc

namespace Buffer

variable {mode : ParenMode} {b b' : Buffer}

theorem Entered.edited (h : b.Entered mode) (hb' : b.Edited mode b') : b'.Entered mode := by
  cases hb' with
  | digit hc => exact h.appendDigit hc
  | point => exact h.appendPoint
  | operator hb' => exact h.append_operator hb'
  | firstOperator _ hb' => exact (h.appendDigit (by decide)).append_operator hb'
  | paren => exact h.appendParen
  | percent hb' => exact h.append_percent hb'
  | backspace => exact h.backspace

theorem Begun.edited {m : Mode} (h : Begun mode m b) : empty.Edited mode b := by
  cases h with
  | digit hc => exact .digit hc
  | point => exact .point
  | paren => exact .paren

/-- The rounded value of a buffer under given settings. -/
def value (config : Config) (b : Buffer) : Except EvalError Float :=
  (Evaluator.evaluate config.overflowLimit b.tokens).map
    (Number.round · config.decimalPlaces.toNat)

end Buffer

/-- The entry shows an expression that can be typed, with its value. -/
structure HistoryEntry.Computes (config : Config) (e : HistoryEntry) (b : Buffer) : Prop where
  entered : b.Entered config.parenMode
  expression_eq : e.expression = b.render
  value_eq : b.value config = .ok e.result

theorem HistoryEntry.Computes.not_isEmpty {config : Config} {e : HistoryEntry} {b : Buffer}
    (h : e.Computes config b) : ¬ b.isEmpty := by
  obtain ⟨v, hv, -⟩ := map_eq_ok.1 h.value_eq
  exact Calculator.buffer_ne_of_rawValue (c := { Calculator.ofConfig config with buffer := b }) hv

theorem HistoryEntry.Computes.writable {config : Config} {e : HistoryEntry} {b : Buffer}
    (h : e.Computes config b) : Number.Writable e.result := by
  obtain ⟨v, hv, hround⟩ := map_eq_ok.1 h.value_eq
  rw [← hround]
  exact Number.writable_round (bounded_of_evaluate hv).1 _

namespace Calculator

/-- The buffer, the last result and the history are such as come from typing, and what is recorded
was evaluated under the limit of the settings. -/
structure Tidy (c : Calculator) : Prop where
  limit : c.evaluatorLimit = c.config.overflowLimit
  buffer : c.buffer.Entered c.config.parenMode
  lastResult : ∀ x, c.lastResult = some x → x.isFinite
  history : ∀ e ∈ c.history.entries, ∃ b, e.Computes c.config b

variable {c c' : Calculator} {now : Timestamp} {o : Outcome}

/-- The evaluator gives a buffer its value under the settings, if it works under their limit. -/
theorem value_of_limit (h : c.evaluatorLimit = c.config.overflowLimit) (b : Buffer) :
    value { c with buffer := b } = b.value c.config := by
  simp only [value, Buffer.value, h]

theorem finite_of_writable {x : Float} (hx : Number.Writable x) : x.isFinite :=
  (Double.isFinite_iff x).2 hx.finite

theorem Tidy.isFinite_of_get? (h : Tidy c) {index : UInt64} {e : HistoryEntry}
    (he : c.history.get? index = some e) : e.result.isFinite := by
  obtain ⟨b, hb⟩ := h.history e (List.mem_of_getElem? he)
  exact finite_of_writable hb.writable

theorem entered_load {x : Float} (hx : x.isFinite) (mode : ParenMode) :
    (Buffer.seeded (Number.format x)).Entered mode :=
  Buffer.entered_seeded (Number.canonical_format hx)

theorem tidy_load (h : Tidy c) {x : Float} (hx : x.isFinite) : Tidy (c.load x) where
  limit := h.limit
  buffer := entered_load hx _
  lastResult _ hy := Option.some.inj hy ▸ hx
  history := h.history

theorem tidy_edit {b : Buffer} (hlimit : c.evaluatorLimit = c.config.overflowLimit)
    (hb : b.Entered c.config.parenMode)
    (hlast : ∀ x, c.lastResult = some x → x.isFinite)
    (hhistory : ∀ e ∈ c.history.entries, ∃ b, e.Computes c.config b) : Tidy (c.edit b).next := by
  obtain ⟨live, hnext⟩ := exists_next_edit c b
  rw [hnext]
  exact ⟨hlimit, hb, hlast, hhistory⟩

theorem tidy_succeed (h : Tidy c) {x : Float} (hx : c.value = .ok x) : Tidy (c.succeed x) where
  limit := h.limit
  buffer := h.buffer
  lastResult _ hy := Option.some.inj hy ▸ finite_of_writable (writable_of_value hx)
  history := h.history

theorem tidy_step (h : Tidy c) (hstep : Step now c c' o) : Tidy c' := by
  cases hstep with
  | refused => exact h
  | overlaid isOpen => exact ⟨h.limit, h.buffer, h.lastResult, h.history⟩
  | typed _ hb => exact tidy_edit h.limit (h.buffer.edited hb) h.lastResult h.history
  | begun _ hb =>
    exact tidy_edit h.limit (Buffer.Entered.empty.edited hb.edited) h.lastResult h.history
  | continued op _ hlast =>
    refine ⟨h.limit, ?_, h.lastResult, h.history⟩
    exact (entered_load (h.lastResult _ hlast) _).push (.operator rfl rfl)
  | restarted => exact ⟨h.limit, .empty, h.lastResult, h.history⟩
  | cleared => exact ⟨h.limit, .empty, fun _ hx => (nomatch hx), h.history⟩
  | recorded _ hx =>
    obtain ⟨hlimit, hbuffer, hlast, hhistory⟩ := tidy_succeed h hx
    refine ⟨hlimit, hbuffer, hlast, fun e he => ?_⟩
    rcases History.mem_record he with hold | rfl
    · exact hhistory e hold
    · have hvalue : c.value = c.buffer.value c.config := value_of_limit h.limit c.buffer
      exact ⟨c.buffer, h.buffer, rfl, hvalue.symm.trans hx⟩
  | shownAgain _ hx => exact tidy_succeed h hx
  | failed => exact ⟨h.limit, h.buffer, h.lastResult, h.history⟩
  | selected he => exact tidy_load h (h.isFinite_of_get? he)
  | read hx => exact tidy_load h hx

theorem tidy_act (h : Tidy c) (times : Moments) (a : Action) : Tidy (c.act times a) :=
  act_of_step h tidy_step times a

theorem tidy_of_inUse (h : InUse c) : Tidy c := by
  refine h.induction (fun config _ => ?_) tidy_step
  exact ⟨rfl, .empty, fun _ hx => (nomatch hx), fun _ he => absurd he List.not_mem_nil⟩

end Calculator
end PocketCalc
