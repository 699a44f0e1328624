import Mathlib.Data.List.Forall2
import PocketCalc.Proofs.Buffer.Scanning
import PocketCalc.Proofs.Session.Finite
import PocketCalc.Proofs.Session.Lines

/-!
# What the display shows

Whatever was done with a calculator, what it shows can be read.  The expression is legible text,
and tells which tokens were typed (`tokens_eq_of_render_eq`).  Beside it stands the message of an
error exactly as long as there is one, and otherwise legible text again: a number that the display
shows is a finite one, since every live value comes from an evaluation, or is a result that was
picked or carried on (`view_is_legible`).
-/

namespace PocketCalc

/-- Text that shows something, in the characters of expressions. -/
structure Legible (s : String) : Prop where
  ne_nil : s.toList ≠ []
  mem_alphabet : ∀ c ∈ s.toList, c ∈ Buffer.alphabet

namespace Buffer

variable {mode : ParenMode} {b : Buffer}

/-- No character of an expression is a letter. -/
theorem not_isAlpha_of_mem_alphabet {c : Char} (hc : c ∈ alphabet) : ¬ c.isAlpha := by
  have hall : alphabet.all fun c => ¬ c.isAlpha := by decide
  exact of_decide_eq_true (List.all_eq_true.1 hall c hc)

theorem Entered.legible_render (h : b.Entered mode) : Legible b.render where
  ne_nil := by
    by_cases hb : b.isEmpty
    · rw [render, if_pos hb]
      decide
    · rw [toList_render hb]
      exact h.chars_ne_nil hb
  mem_alphabet _ hc := h.mem_alphabet_of_render hc

end Buffer

theorem Legible.not_isAlpha {s : String} (h : Legible s) {c : Char} (hc : c ∈ s.toList) :
    ¬ c.isAlpha := Buffer.not_isAlpha_of_mem_alphabet (h.mem_alphabet c hc)

/-- A finite number is shown as legible text. -/
theorem Number.legible_format {x : Float} (hx : x.isFinite) : Legible (format x) where
  ne_nil := by
    rcases canonical_format hx with h | ⟨cs, hcs, -⟩
    · exact h.numeral.ne_nil
    · rw [hcs]
      exact List.cons_ne_nil _ _
  mem_alphabet _ hc := mem_alphabet_of_format hx hc

/-- A line has the equals sign between its two halves and no other one. -/
theorem HistoryEntry.count_equals_line {e : HistoryEntry} (hexpression : Legible e.expression)
    (hresult : e.result.isFinite) : e.line.toList.count '=' = 1 := by
  have hnone : ∀ {s : String}, Legible s → s.toList.count '=' = 0 := fun h =>
    List.count_eq_zero.2 fun hmem => Buffer.not_mem_alphabet_equals (h.mem_alphabet _ hmem)
  have hmiddle : " = ".toList.count '=' = 1 := by decide
  rw [line, String.toList_append, String.toList_append, List.count_append, List.count_append,
    hnone hexpression, hnone (Number.legible_format hresult), hmiddle]

/-- No message is the text that is shown for want of one. -/
theorem EvalError.message_ne_error (e : EvalError) : e.message ≠ "Error" := by
  cases e <;> decide

namespace Calculator

variable {c d : Calculator}

/-! ## The expression -/

/-- Two calculators that show the same expression have the same tokens in it, however each of them
came to it and whatever its settings are.  Only the zero shown for an empty buffer is that of a
buffer with a zero in it, too. -/
theorem tokens_eq_of_render_eq (hc : InUse c) (hd : InUse d) (hcb : ¬ c.buffer.isEmpty)
    (hdb : ¬ d.buffer.isEmpty) (h : c.buffer.render = d.buffer.render) :
    c.buffer.tokens = d.buffer.tokens := by
  have hread : Buffer.ofText c.buffer.render = c.buffer :=
    (tidy_of_inUse hc).buffer.ofText_render hcb
  have hread' : Buffer.ofText d.buffer.render = d.buffer :=
    (tidy_of_inUse hd).buffer.ofText_render hdb
  rw [← hread, h, hread']

/-- The expression `-2-2.`, on one calculator from a result that a key carries on, on another one
from a line of text. -/
theorem tokens_eq_of_render_eq_minus :
    let now : Timestamp := ⟨2024, 1, 2, 3, 4, 5, by decide⟩
    let c := new.act now (.pressAll [.digit 3, .operator .sub, .digit 5, .equals, .operator .sub,
      .digit 2, .decimalPoint])
    let d := ((ofConfig { decimalPlaces := 2, parenMode := .balanced }).act now
      (.selectLine "x = -2")).act now (.pressAll [.operator .sub, .digit 2, .decimalPoint])
    InUse c ∧ InUse d ∧ c.buffer.render = "-2-2." ∧ d.buffer.render = "-2-2." ∧
      c.buffer.tokens = d.buffer.tokens ∧
      d.buffer.tokens = [.number "-2", .operator .sub, .number "2."] := by
  intro now c d
  have hc : InUse c := inUse_new.act now _
  have hd : InUse d := ((inUse_ofConfig (by decide +kernel)).act now _).act now _
  have hcText : c.buffer.render = "-2-2." := by decide +kernel
  have hdText : d.buffer.render = "-2-2." := by decide +kernel
  exact ⟨hc, hd, hcText, hdText, tokens_eq_of_render_eq hc hd (by decide +kernel)
    (by decide +kernel) (hcText.trans hdText.symm), by decide +kernel⟩

/-! ## What stands beside it -/

theorem displayText_of_error (h : Coherent c) (hmode : c.mode = .error) :
    ∃ e, c.error = some e ∧ c.displayText = e.message ∧ c.displayText ≠ "Error" := by
  obtain ⟨e, he, -⟩ := (h.failing hmode).error
  have htext : c.displayText = e.message := by
    rw [displayText, hmode, he]
    rfl
  exact ⟨e, he, htext, htext ▸ e.message_ne_error⟩

theorem legible_displayText (h : InUse c) (hmode : c.mode ≠ .error) : Legible c.displayText := by
  have htidy := tidy_of_inUse h
  have hshown : ∀ value : Option Float, (∀ x, value = some x → x.isFinite) →
      Legible ((value.map Number.format).getD c.buffer.render) := by
    intro value hvalue
    cases value with
    | none => exact htidy.buffer.legible_render
    | some x => exact Number.legible_format (hvalue x rfl)
  unfold displayText
  cases hc : c.mode with
  | error => exact absurd hc hmode
  | entering => exact hshown _ fun _ => finite_liveValue h
  | resultShown => exact hshown _ htidy.lastResult

/-- The view says that there is an error exactly in error mode, and then it shows the message of
the error that is held, which is never the text for want of one.  In the other modes it shows legible text, without a letter, so neither a
message nor an exponent nor a word for a number.  The expression is legible in every mode, and the
history has a line for each entry, with a single equals sign. -/
theorem view_is_legible (h : InUse c) :
    (c.view.isError = true ↔ c.mode = .error) ∧
    (c.mode = .error → ∃ e, c.error = some e ∧ c.view.displayText = e.message ∧
      c.view.displayText ≠ "Error") ∧
    (c.mode ≠ .error → Legible c.view.displayText ∧
      ∀ ch ∈ c.view.displayText.toList, ¬ ch.isAlpha) ∧
    Legible c.view.expressionText ∧
    List.Forall₂ (fun e line =>
        line = e.expression ++ " = " ++ Number.format e.result ∧ line.toList.count '=' = 1)
      c.history.entries c.view.historyEntries := by
  have htidy := tidy_of_inUse h
  refine ⟨?_, displayText_of_error (coherent_of_inUse h), fun hmode => ?_,
    htidy.buffer.legible_render, ?_⟩
  · show c.mode.isError = true ↔ c.mode = .error
    cases c.mode <;> decide
  · have hlegible : Legible c.view.displayText := legible_displayText h hmode
    exact ⟨hlegible, fun ch => hlegible.not_isAlpha⟩
  · refine List.forall₂_map_right_iff.2 (List.forall₂_same.2 fun e he => ⟨rfl, ?_⟩)
    obtain ⟨b, hb⟩ := htidy.history e he
    refine HistoryEntry.count_equals_line ?_ (finite_of_writable hb.writable)
    rw [hb.expression_eq]
    exact hb.entered.legible_render

/-- A great quotient is shown with all its digits, beside the sum in the history.  Then a division
by zero fails. -/
theorem view_is_legible_quotient :
    let now : Timestamp := ⟨2024, 1, 2, 3, 4, 5, by decide⟩
    let c := new.act now (.pressAll [.digit 3, .operator .sub, .digit 5, .equals, .operator .div,
      .decimalPoint, .digit 0, .digit 0, .digit 0, .digit 1])
    let d := c.act now (.pressAll [.backspace, .equals])
    InUse c ∧ c.mode = .entering ∧ c.view.displayText = "-20000" ∧
      Legible c.view.displayText ∧ c.view.expressionText = "-2÷0.0001" ∧
      c.view.historyEntries = ["3-5 = -2"] ∧ "3-5 = -2".toList.count '=' = 1 ∧
    InUse d ∧ d.mode = .error ∧
      ∃ e, d.error = some e ∧ d.view.displayText = e.message ∧ d.view.displayText ≠ "Error" ∧
        e = .divisionByZero ∧ e.message = "Division by zero" := by
  intro now c d
  have hc : InUse c := inUse_new.act now _
  have hd : InUse d := hc.act now _
  have hcMode : c.mode = .entering := by decide +kernel
  have hdMode : d.mode = .error := by decide +kernel
  have hlines : c.view.historyEntries = ["3-5 = -2"] := by decide +kernel
  obtain ⟨-, -, hdisplay, -, hhistory⟩ := view_is_legible hc
  obtain ⟨-, herror, -, -, -⟩ := view_is_legible hd
  have hcount : "3-5 = -2".toList.count '=' = 1 := by
    rw [hlines] at hhistory
    generalize c.history.entries = entries at hhistory
    cases hhistory with
    | cons hline _ => exact hline.2
  obtain ⟨e, he, hmessage, hnot⟩ := herror hdMode
  have hzero : d.error = some .divisionByZero := by decide +kernel
  obtain rfl : e = .divisionByZero := Option.some.inj (he.symm.trans hzero)
  exact ⟨hc, hcMode, by decide +kernel, (hdisplay (by rw [hcMode]; decide)).1, by decide +kernel,
    hlines, hcount, hd, hdMode, _, he, hmessage, hnot, rfl, rfl⟩

end Calculator
end PocketCalc
