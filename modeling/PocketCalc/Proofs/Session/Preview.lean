import PocketCalc.Calculator.View
import PocketCalc.Proofs.Buffer.Entry
import PocketCalc.Proofs.Evaluation.Unfinished
import PocketCalc.Proofs.Session.Coherence

/-!
# A digit typed and deleted

A digit that begins a number and is deleted again leaves the expression as it was.  The live value
is that of the last expression that had one, which may be the longer one: then it stays.  In all
other cases the calculator is the same as before, since the live value of an empty expression and
of one that has a value is known from the mode (`Coherent`).
-/

namespace PocketCalc

theorem Buffer.backspace_push_digit (b : Buffer) (ch : Char) :
    (b.push (.number (String.singleton ch))).backspace = b := by
  have hopen : (b.push (.number (String.singleton ch))).openNumber? = some (String.singleton ch) :=
    openNumber?_eq_some.2 (last?_push _ _)
  have hshorter : (String.singleton ch).toList.dropLast = [] := by
    rw [String.toList_singleton]
    rfl
  simp only [backspace, hopen, hshorter, true_or, if_true, pop_push]

namespace Calculator

variable {c : Calculator} {n : UInt8}

/-- The calculator with a digit more in its buffer, as a number of its own. -/
def withDigit (c : Calculator) (n : UInt8) : Calculator :=
  { c with buffer := c.buffer.push (.number (String.singleton (Nat.digitChar n.toNat))) }

theorem next_press_digit (now : Timestamp) (hmode : c.mode = .entering)
    (hopen : c.buffer.openNumber? = none) (hn : n < 10) :
    (c.press now (.digit n)).next = (c.edit (c.withDigit n).buffer).next := by
  have hdigit : (Nat.digitChar n.toNat).isDigit := by
    rw [Nat.isDigit_digitChar]
    exact decide_eq_true (UInt8.lt_iff_toNat_lt.1 hn)
  rw [next_press, handle_digit c now hn]
  simp only [pressDigit, entering_of_entering hmode]
  rw [Buffer.appendDigit_of_not_open hopen hdigit]
  rfl

theorem next_press_backspace (now : Timestamp) (hmode : c.mode = .entering) :
    (c.press now .backspace).next = (c.edit c.buffer.backspace).next := by
  rw [next_press]
  simp only [handle, pressBackspace, hmode]

/-- Deleting the digit brings the buffer back, and the live value up to date. -/
theorem next_press_backspace_withDigit (now : Timestamp) (hmode : c.mode = .entering)
    (live : Option Float) :
    (press { c with buffer := (c.withDigit n).buffer, liveValue := live } now .backspace).next =
      (edit { c with liveValue := live } c.buffer).next := by
  have hpress := next_press_backspace now
    (c := { c with buffer := (c.withDigit n).buffer, liveValue := live }) hmode
  have hback : (c.withDigit n).buffer.backspace = c.buffer := Buffer.backspace_push_digit _ _
  rw [hpress]
  show (edit { c with buffer := (c.withDigit n).buffer, liveValue := live }
    (c.withDigit n).buffer.backspace).next = _
  rw [hback]
  simp only [edit]

/-- The live value is brought up to date twice, with the longer expression and then with the one
that was there before. -/
theorem next_digit_backspace (now now' : Timestamp) (hmode : c.mode = .entering)
    (hopen : c.buffer.openNumber? = none) (hn : n < 10) :
    let c' := ((c.press now (.digit n)).next.press now' .backspace).next
    (∀ x, (c.withDigit n).value = .ok x →
      c' = (edit { c with liveValue := some x } c.buffer).next) ∧
    ∀ e, (c.withDigit n).value = .error e → c' = (c.edit c.buffer).next := by
  intro c'
  have hlonger : ¬ (c.withDigit n).buffer.isEmpty := fun hempty => by
    rw [Buffer.isEmpty_iff] at hempty
    exact List.append_ne_nil_of_right_ne_nil _ (List.cons_ne_nil _ _)
      (congrArg Buffer.tokens hempty)
  have hdigit : c' = (press (c.edit (c.withDigit n).buffer).next now' .backspace).next :=
    congrArg (fun d : Calculator => (d.press now' .backspace).next)
      (next_press_digit now hmode hopen hn)
  constructor
  · intro x hvalue
    rw [hdigit, edit_ok hlonger hvalue]
    exact next_press_backspace_withDigit now' hmode (some x)
  · intro e hvalue
    rw [hdigit, edit_error hlonger hvalue]
    exact next_press_backspace_withDigit now' hmode c.liveValue

/-- A number directly after a complete expression leaves it without a value. -/
theorem value_withDigit_ne_ok {x : Float} (hx : c.value = .ok x) (y : Float) :
    (c.withDigit n).value ≠ .ok y := by
  intro hy
  obtain ⟨v, hv, -⟩ := map_eq_ok.1 hx
  obtain ⟨w, hw, -⟩ := map_eq_ok.1 hy
  obtain ⟨e, he⟩ := exists_tokens_of_rawValue hv
  obtain ⟨t, hlast, ht⟩ := e.ends_tokens
  rw [← he] at hlast
  have hjuxtaposed := juxtaposed_concat (u := .number (String.singleton (Nat.digitChar n.toNat)))
    hlast ht rfl
  refine hjuxtaposed.evaluate_append_ne_ok c.evaluatorLimit [] w ?_
  rw [List.append_nil]
  exact hw

/-- A live value that is brought up to date once more is the same. -/
theorem next_edit_buffer (h : Coherent c) (hmode : c.mode = .entering) :
    (c.edit c.buffer).next = c := by
  obtain ⟨-, hempty, hraw⟩ := h.typing hmode
  by_cases hb : c.buffer.isEmpty
  · rw [edit_empty c hb, ← hempty hb]
  · cases hvalue : c.value with
    | ok x =>
      obtain ⟨v, hv, rfl⟩ := map_eq_ok.1 hvalue
      have hlive : c.liveValue = some (c.shown v) := (hraw v hv).1
      rw [edit_ok hb hvalue]
      show { c with liveValue := some (c.shown v) } = c
      rw [← hlive]
    | error e => rw [edit_error hb hvalue]

/-- Typing a digit as a number of its own and deleting it again leaves the calculator as it was,
unless it was typed into an expression and gave it a value.  Then this is left as the live value,
and all else is as it was. -/
theorem digit_then_backspace (h : InUse c) (hmode : c.mode = .entering)
    (hlast : ∀ text, c.buffer.last? ≠ some (.number text)) (hn : n < 10) (now now' : Timestamp) :
    let c' := ((c.press now (.digit n)).next.press now' .backspace).next
    ((c.buffer.isEmpty ∨ ∀ x, (c.withDigit n).value ≠ .ok x) → c' = c ∧ c'.view = c.view) ∧
    ∀ x, ¬ c.buffer.isEmpty → (c.withDigit n).value = .ok x →
      c' = { c with liveValue := some x } ∧
      c'.view = { c.view with displayText := Number.format x } := by
  intro c'
  have hopen : c.buffer.openNumber? = none := Buffer.openNumber?_eq_none.2 hlast
  have hself : (c.edit c.buffer).next = c := next_edit_buffer (coherent_of_inUse h) hmode
  have hsame : c' = c → c' = c ∧ c'.view = c.view := fun hc => ⟨hc, congrArg view hc⟩
  obtain ⟨hok, herror⟩ := next_digit_backspace now now' hmode hopen hn
  refine ⟨fun hor => hsame ?_, fun x hb hx => ?_⟩
  · cases hvalue : (c.withDigit n).value with
    | error e => exact (herror e hvalue).trans hself
    | ok x =>
      have hb : c.buffer.isEmpty := hor.resolve_right fun hno => hno x hvalue
      rw [edit_empty c hb] at hself
      refine (hok x hvalue).trans ?_
      rw [edit_empty _ hb]
      exact hself
  · have hkept : c' = { c with liveValue := some x } := by
      refine (hok x hx).trans ?_
      cases hold : c.value with
      | ok z => exact absurd hx (value_withDigit_ne_ok hold x)
      | error e => rw [edit_error (c := { c with liveValue := some x }) hb hold]
    refine ⟨hkept, ?_⟩
    rw [hkept]
    simp only [view, displayText, hmode, Option.map_some, Option.getD_some]

/-- After `1+` the digit 2 leaves the value of the sum behind, and after `(1+2)` it leaves
nothing. -/
theorem digit_then_backspace_sum :
    let now : Timestamp := ⟨2024, 1, 2, 3, 4, 5, by decide⟩
    let c := new.act now (.pressAll [.digit 1, .operator .add])
    let d := new.act now (.pressAll [.paren, .digit 1, .operator .add, .digit 2, .paren])
    (InUse c ∧ ((c.press now (.digit 2)).next.press now .backspace).next =
      { c with liveValue := some 3 }) ∧
    InUse d ∧ d.liveValue = some 3 ∧
      ((d.press now (.digit 2)).next.press now .backspace).next = d := by
  intro now c d
  have hc : InUse c := inUse_new.act now _
  have hd : InUse d := inUse_new.act now _
  have hcLast : c.buffer.last? = some (.operator .add) := by decide +kernel
  have hdLast : d.buffer.last? = some .rightParen := by decide +kernel
  have hcValue : (c.withDigit 2).value = .ok 3 := by decide +kernel
  have hdValue : (d.withDigit 2).value = .error .malformedExpression := by decide +kernel
  obtain ⟨-, hkept⟩ := digit_then_backspace (n := 2) hc (by decide +kernel)
    (fun text h => nomatch hcLast.symm.trans h) (by decide) now now
  obtain ⟨hsame, -⟩ := digit_then_backspace (n := 2) hd (by decide +kernel)
    (fun text h => nomatch hdLast.symm.trans h) (by decide) now now
  have hnone : ∀ x, (d.withDigit 2).value ≠ .ok x := fun x hx => nomatch hdValue.symm.trans hx
  exact ⟨⟨hc, (hkept 3 (by decide +kernel) hcValue).1⟩, hd, by decide +kernel,
    (hsame (.inr hnone)).1⟩

/-- The display after `1+` is not always the same again once a digit is typed and deleted: it
goes from 1 to 3. -/
theorem display_changed_by_digit_then_backspace :
    let now : Timestamp := ⟨2024, 1, 2, 3, 4, 5, by decide⟩
    let c := new.act now (.pressAll [.digit 1, .operator .add])
    let c' := ((c.press now (.digit 2)).next.press now .backspace).next
    InUse c ∧ c.mode = .entering ∧ c.buffer.last? = some (.operator .add) ∧
      c'.buffer = c.buffer ∧ (c.liveValue = some 1 ∧ c'.liveValue = some 3) ∧
      c.view.displayText = "1" ∧ c'.view.displayText = "3" := by
  intro now c c'
  have hc : InUse c := inUse_new.act now _
  refine ⟨hc, ?_, ?_, ?_, ⟨?_, ?_⟩, ?_, ?_⟩
  · decide +kernel
  · decide +kernel
  · decide +kernel
  · decide +kernel
  · decide +kernel
  · decide +kernel
  · decide +kernel

end Calculator
end PocketCalc
