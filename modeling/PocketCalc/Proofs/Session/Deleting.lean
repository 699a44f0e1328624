import PocketCalc.Calculator.View
import PocketCalc.Proofs.Session.Keypad
import PocketCalc.Proofs.Session.Preview
import PocketCalc.Proofs.Session.Tidy

/-!
# Deleting an expression

The backspace key takes one character off the expression that is being typed, and the sign with
it where nothing but the sign would be left of a number.  So the number of characters bounds how
often the key has to be pressed until there is none left.  From there on the calculator shows a
zero and the key changes nothing: the live value of an empty expression is known from the mode,
although it may have been left over from a longer one until then.
-/

namespace PocketCalc
namespace Buffer

variable {mode : ParenMode} {b : Buffer} {t : Token}

/-- The characters of the tokens.  An empty buffer has none, though it shows a zero. -/
def chars (b : Buffer) : List Char := b.tokens.flatMap Token.chars

/-- The open number has a sign and a single character after it. -/
def LeavesSign (b : Buffer) : Prop :=
  ∃ text ch, b.openNumber? = some text ∧ text.toList = ['-', ch]

/-- What deleting at the end makes of a buffer: one character goes, or the last character of a
number together with its sign, and the tokens before the last one stay. -/
structure Shortened (b b' : Buffer) : Prop where
  chars_eq : ¬ b.LeavesSign → ∃ ch, b.chars = b'.chars ++ [ch]
  chars_of_leavesSign : b.LeavesSign → ∃ ch, b.chars = b'.chars ++ ['-', ch]
  tokens_eq : b' = b.pop ∨ ∃ text, b' = b.pop.push (.number text)

theorem Shortened.length_lt {b' : Buffer} (h : b.Shortened b') :
    b'.chars.length < b.chars.length := by
  by_cases hsign : b.LeavesSign
  · obtain ⟨ch, hchars⟩ := h.chars_of_leavesSign hsign
    rw [hchars, List.length_append]
    exact Nat.lt_add_of_pos_right Nat.two_pos
  · obtain ⟨ch, hchars⟩ := h.chars_eq hsign
    rw [hchars, List.length_append]
    exact Nat.lt_add_of_pos_right Nat.one_pos

theorem chars_eq_of_last? (hlast : b.last? = some t) : b.chars = b.pop.chars ++ t.chars := by
  conv_lhs => rw [← push_pop_of_last? hlast]
  exact chars_push

theorem chars_push_number (b : Buffer) (cs : List Char) :
    (b.push (.number (String.ofList cs))).chars = b.chars ++ cs := by
  have hpush : (b.push (.number (String.ofList cs))).chars =
      b.chars ++ (String.ofList cs).toList := chars_push
  rw [hpush, String.toList_ofList]

theorem Entered.chars_eq_nil (h : b.Entered mode) : b.chars = [] ↔ b = Buffer.empty :=
  ⟨fun hchars => isEmpty_iff.1 (Decidable.not_not.1 fun hb => h.chars_ne_nil hb hchars),
    fun hb => hb ▸ rfl⟩

/-- Every token but a number is a single character. -/
theorem chars_of_not_number (ht : ∀ text, t ≠ .number text) : ∃ ch, t.chars = [ch] := by
  cases t with
  | number text => exact absurd rfl (ht text)
  | operator op => exact ⟨op.glyph, rfl⟩
  | leftParen => exact ⟨'(', rfl⟩
  | rightParen => exact ⟨')', rfl⟩
  | percent => exact ⟨'%', rfl⟩

theorem not_leavesSign {text : String} (hopen : b.openNumber? = some text)
    (htext : text.toList.dropLast ≠ ['-']) : ¬ b.LeavesSign := by
  rintro ⟨text', ch, hopen', htext'⟩
  obtain rfl := Option.some.inj (hopen.symm.trans hopen')
  rw [htext'] at htext
  exact htext rfl

theorem backspace_empty : empty.backspace = empty := rfl

theorem shortened_pop (hopen : b.openNumber? = none) (hlast : b.last? = some t) :
    b.Shortened b.pop where
  chars_eq _ := by
    have ht : ∀ text, t ≠ .number text := fun text heq =>
      openNumber?_eq_none.1 hopen text (hlast.trans (congrArg some heq))
    obtain ⟨ch, hch⟩ := chars_of_not_number ht
    exact ⟨ch, hch ▸ chars_eq_of_last? hlast⟩
  chars_of_leavesSign := fun ⟨_, _, hopen', _⟩ => nomatch hopen.symm.trans hopen'
  tokens_eq := .inl rfl

/-- The key deletes exactly the last character, except that a sign never stays alone. -/
theorem Entered.shortened (h : b.Entered mode) (hb : ¬ b.isEmpty) : b.Shortened b.backspace := by
  obtain ⟨t, hlast⟩ : ∃ t, b.last? = some t := Option.ne_none_iff_exists'.1 fun hnone =>
    hb (List.isEmpty_iff.2 (List.getLast?_eq_none_iff.1 hnone))
  unfold Buffer.backspace
  cases hopen : b.openNumber? with
  | none => exact shortened_pop hopen hlast
  | some text =>
    have hnumber := openNumber?_eq_some.1 hopen
    have hne : text.toList ≠ [] := (h.accepts_last hnumber).chars_ne_nil
    obtain ⟨ch, htext⟩ : ∃ ch, text.toList = text.toList.dropLast ++ [ch] :=
      ⟨_, (List.dropLast_concat_getLast hne).symm⟩
    have hchars : b.chars = b.pop.chars ++ (text.toList.dropLast ++ [ch]) :=
      (chars_eq_of_last? hnumber).trans (congrArg _ htext)
    by_cases hsign : text.toList.dropLast = ['-']
    · have hleaves : b.LeavesSign := ⟨text, ch, hopen, by rw [htext, hsign]; rfl⟩
      simp only [hsign, or_true, if_true]
      rw [hsign] at hchars
      exact ⟨fun hnot => absurd hleaves hnot, fun _ => ⟨ch, hchars⟩, .inl rfl⟩
    · have hleaves := not_leavesSign hopen hsign
      by_cases hnil : text.toList.dropLast = []
      · simp only [hnil, true_or, if_true]
        rw [hnil] at hchars
        exact ⟨fun _ => ⟨ch, hchars⟩, fun hyes => absurd hyes hleaves, .inl rfl⟩
      · simp only [hnil, hsign, or_self, if_false]
        refine ⟨fun _ => ⟨ch, ?_⟩, fun hyes => absurd hyes hleaves, .inr ⟨_, rfl⟩⟩
        rw [hchars, chars_push_number, List.append_assoc]

/-- The key brings the number of characters down wherever there is one. -/
theorem Entered.length_backspace_le (h : b.Entered mode) {n : Nat}
    (hn : b.chars.length ≤ n + 1) : b.backspace.chars.length ≤ n := by
  by_cases hb : b.isEmpty
  · rw [isEmpty_iff.1 hb, backspace_empty]
    exact Nat.zero_le n
  · exact Nat.le_of_lt_succ (Nat.lt_of_lt_of_le (h.shortened hb).length_lt hn)

end Buffer

namespace Calculator

variable {c : Calculator} {now : Timestamp}

/-- The calculator with nothing typed. -/
def withoutExpression (c : Calculator) : Calculator :=
  { c with buffer := .empty, liveValue := none }

theorem next_press_backspace_withoutExpression (hmode : c.mode = .entering) :
    (c.withoutExpression.press now .backspace).next = c.withoutExpression := by
  rw [next_press_backspace (c := c.withoutExpression) now hmode]
  rfl

theorem eq_withoutExpression (h : InUse c) (hmode : c.mode = .entering)
    (hchars : c.buffer.chars = []) : c = c.withoutExpression := by
  have hbuffer : c.buffer = .empty := (tidy_of_inUse h).buffer.chars_eq_nil.1 hchars
  have hlive := ((coherent_of_inUse h).typing hmode).liveValue_of_isEmpty
    (Buffer.isEmpty_iff.2 hbuffer)
  show c = { c with buffer := .empty, liveValue := none }
  rw [← hbuffer, ← hlive]

theorem run_backspaces {n : Nat} {r : List (Moments × Action)}
    (hr : Types r (List.replicate n .backspace)) (h : InUse c) (hmode : c.mode = .entering)
    (hn : c.buffer.chars.length ≤ n) : c.run r = c.withoutExpression := by
  induction n generalizing c r with
  | zero =>
    cases hr
    exact eq_withoutExpression h hmode (List.length_eq_zero_iff.1 (Nat.le_zero.1 hn))
  | succ n ih =>
    obtain _ | @⟨⟨times, a⟩, _, r, _, hstep, hrest⟩ := hr
    obtain ⟨live, hnext⟩ := exists_next_edit c c.buffer.backspace
    have hact : c.act times a = { c with buffer := c.buffer.backspace, liveValue := live } := by
      rw [act_of_presses hstep, next_press_backspace times.first hmode, hnext]
    have huse := h.act times a
    rw [hact] at huse
    rw [run, hact]
    exact ih hrest huse hmode ((tidy_of_inUse h).buffer.length_backspace_le hn)

/-- While an expression is being typed, the backspace key deletes its last character, and the sign
of a number with its last digit, and leaves the tokens before the last one alone.  Pressed at least
as often as there are characters, by whatever symbols, it leaves no expression and no live value,
and all else as it was.  Then a zero is shown, and the key changes nothing any more. -/
theorem backspaces_delete_expression (h : InUse c) (hmode : c.mode = .entering) :
    (¬ c.buffer.isEmpty → ∀ now,
      c.buffer.Shortened (c.press now .backspace).next.buffer) ∧
    ∀ n r, c.buffer.chars.length ≤ n → Types r (List.replicate n .backspace) →
      c.run r = c.withoutExpression ∧
      (c.run r).view.expressionText = "0" ∧ (c.run r).view.displayText = "0" ∧
      ∀ times a, a.Presses .backspace → (c.run r).act times a = c.run r := by
  refine ⟨fun hb now => ?_, fun n r hn hr => ?_⟩
  · rw [next_press_backspace now hmode, buffer_edit]
    exact (tidy_of_inUse h).buffer.shortened hb
  · rw [run_backspaces hr h hmode hn]
    refine ⟨rfl, rfl, ?_, fun times a ha => ?_⟩
    · simp only [view, displayText, withoutExpression, hmode]
      rfl
    · rw [act_of_presses ha, next_press_backspace_withoutExpression hmode]

/-- The expression `-2×(12`, continued from a result, is gone after seven keys.  The result by
itself, `-2`, goes with a single one. -/
theorem backspaces_delete_expression_negative :
    let now : Timestamp := ⟨2024, 1, 2, 3, 4, 5, by decide⟩
    let c := new.act now (.pressAll [.digit 3, .operator .sub, .digit 5, .equals, .operator .mul,
      .paren, .digit 1, .digit 2])
    let deletions : List (Moments × Action) :=
      ["⌫", "<", "backspace", " < "].map fun symbol => (now, .pressSymbol symbol)
    let further : List (Moments × Action) := List.replicate 3 (now, .press .backspace)
    let d := c.run deletions
    (InUse c ∧ c.mode = .entering ∧ c.buffer.render = "-2×(12" ∧ c.buffer.chars.length = 6) ∧
    (c.run (deletions ++ further) = c.withoutExpression ∧
      c.withoutExpression.view.displayText = "0") ∧
    (InUse d ∧ d.mode = .entering ∧ d.buffer.render = "-2" ∧ d.buffer.LeavesSign) ∧
      ∃ ch, d.buffer.chars = (d.press now .backspace).next.buffer.chars ++ ['-', ch] := by
  intro now c deletions further d
  have hc : InUse c := inUse_new.act now _
  have hd : InUse d := hc.run _
  have hcMode : c.mode = .entering := by decide +kernel
  have hdMode : d.mode = .entering := by decide +kernel
  have hlength : c.buffer.chars.length = 6 := by decide +kernel
  have hsign : d.buffer.LeavesSign := ⟨"-2", '2', by decide +kernel, rfl⟩
  have hpresses : Types (deletions ++ further) (List.replicate 7 .backspace) := by
    have hsymbol : ∀ symbol, Key.ofSymbol symbol = .ok .backspace →
        (Action.pressSymbol symbol).Presses .backspace := fun symbol h => .inr ⟨symbol, rfl, h⟩
    have hkey : (Action.press .backspace).Presses .backspace := .inl rfl
    exact .cons (hsymbol _ (by decide +kernel)) (.cons (hsymbol _ (by decide +kernel))
      (.cons (hsymbol _ (by decide +kernel)) (.cons (hsymbol _ (by decide +kernel))
        (.cons hkey (.cons hkey (.cons hkey .nil))))))
  obtain ⟨-, hrun⟩ := backspaces_delete_expression hc hcMode
  obtain ⟨hgone, -, hdisplay, -⟩ := hrun 7 _ (by rw [hlength]; decide) hpresses
  obtain ⟨hshorter, -⟩ := backspaces_delete_expression hd hdMode
  exact ⟨⟨hc, hcMode, by decide +kernel, hlength⟩, ⟨hgone, hgone ▸ hdisplay⟩,
    ⟨hd, hdMode, by decide +kernel, hsign⟩,
    (hshorter (by decide +kernel) now).chars_of_leavesSign hsign⟩

end Calculator
end PocketCalc
