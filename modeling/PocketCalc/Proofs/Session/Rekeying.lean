import PocketCalc.Proofs.Session.Keypad
import PocketCalc.Proofs.Session.Recording
import PocketCalc.Proofs.Session.Tidy

/-!
# Keying a recorded expression again

What the history shows is what was typed.  The characters of a recorded expression, taken as
symbols of the keypad, type the buffer that was recorded, with the same tokens in it, so that the
equals key gives the recorded result again.  Only the sign of a result that was carried on cannot
be typed: the minus key is an operator, which puts a zero in front of itself.
-/

namespace PocketCalc

theorem Buffer.exists_ofSymbol {ch : Char} (hch : ch ∈ alphabet) :
    ∃ key, Key.ofSymbol (String.singleton ch) = .ok key := by
  have hall : alphabet.all fun ch => (Key.ofSymbol (String.singleton ch)).isOk := by
    decide +kernel
  cases h : Key.ofSymbol (String.singleton ch) with
  | ok key => exact ⟨key, rfl⟩
  | error e =>
    have hok := List.all_eq_true.1 hall ch hch
    rw [h] at hok
    cases hok

namespace Calculator

/-- The actions of the run press the characters of the text as symbols, one each. -/
def Spells (r : List (Moments × Action)) (text : String) : Prop :=
  r.map Prod.snd = text.toList.map fun ch => .pressSymbol (String.singleton ch)

variable {c : Calculator} {r : List (Moments × Action)} {now : Timestamp}

theorem Spells.types {text : String} {keys : List Key} (hr : Spells r text)
    (hkeys : List.Forall₂ (fun ch key => Key.ofSymbol (String.singleton ch) = .ok key)
      text.toList keys) : Types r keys := by
  have hactions : List.Forall₂ Action.Presses (r.map Prod.snd) keys := by
    rw [hr, List.forall₂_map_left_iff]
    exact hkeys.imp fun ch key hkey => .inr ⟨_, rfl, hkey⟩
  exact List.forall₂_map_left_iff.1 hactions

theorem press_equals_of_types {config : Config} (herrors : config.errors = [])
    {e : HistoryEntry} {b : Buffer} (he : e.Computes config b)
    (hnumbers : ∀ text, .number text ∈ b.tokens → Numeral.Canonical text.toList)
    (hr : Types r (b.tokens.flatMap Token.keys)) :
    (((ofConfig config).run r).press now .equals).outcome = .evaluated e.result ∧
      (((ofConfig config).run r).press now .equals).next.history.entries =
        [⟨e.expression, e.result, now⟩] := by
  obtain ⟨live, hrun⟩ := run_types_buffer he.entered hnumbers hr
  -- The calculator is as it was built, but for the buffer and its live value.
  let typed : Calculator := { ofConfig config with buffer := b, liveValue := live }
  have hequals : typed.pressEquals now = _ :=
    pressEquals_entering now rfl he.not_isEmpty he.value_eq
  rw [hrun, outcome_press, next_press]
  show (typed.pressEquals now).outcome = _ ∧ (typed.pressEquals now).next.history.entries = _
  rw [hequals, he.expression_eq]
  refine ⟨rfl, ?_⟩
  show (typed.history.record ⟨b.render, e.result, now⟩).entries = _
  rw [History.entries_record]
  exact History.kept_singleton _ (historyLimit_ne_zero herrors)

/-- An expression of the history, if no sign stands in front of it, can be keyed again on a
calculator that is built with the same settings.  Each of its characters is the symbol of a key,
the equals key then gives the recorded result, and the same expression is recorded with it. -/
theorem run_spells_expression (h : InUse c) {e : HistoryEntry}
    (he : e ∈ c.history.entries) (hsign : e.expression.toList.head? ≠ some '-') :
    (∀ ch ∈ e.expression.toList, ∃ key, Key.ofSymbol (String.singleton ch) = .ok key) ∧
    ∃ first, build c.config = .ok first ∧ ∀ r now, Spells r e.expression →
      ((first.run r).press now .equals).outcome = .evaluated e.result ∧
      ((first.run r).press now .equals).next.history.entries =
        [⟨e.expression, e.result, now⟩] := by
  obtain ⟨b, hb⟩ := (tidy_of_inUse h).history e he
  have herrors : c.config.errors = [] := errors_of_inUse h
  have hchars : e.expression.toList = b.tokens.flatMap Token.chars := by
    rw [hb.expression_eq, Buffer.toList_render hb.not_isEmpty]
  have hnumbers : ∀ text, .number text ∈ b.tokens → Numeral.Canonical text.toList :=
    hb.entered.canonical_of_head (hchars ▸ hsign)
  have hsymbols := hb.entered.symbols hnumbers
  rw [← hchars] at hsymbols
  refine ⟨fun ch hch => ?_, ofConfig c.config, build_eq_ok.2 ⟨herrors, rfl⟩, fun r now hr => ?_⟩
  · rw [hb.expression_eq] at hch
    exact Buffer.exists_ofSymbol (hb.entered.mem_alphabet_of_render hch)
  · exact press_equals_of_types herrors hb hnumbers (hr.types hsymbols)

/-- `(1.2+3)×50%`, typed with a digit too many that is deleted, is 2.1, and the division that goes
on from there is keyed again with its first number and its dangling point. -/
theorem run_spells_expression_continued :
    let now : Timestamp := ⟨2024, 1, 2, 3, 4, 5, by decide⟩
    let c := new.act now (.pressAll [.paren, .digit 1, .decimalPoint, .digit 2, .digit 5,
      .backspace, .operator .add, .digit 3, .paren, .operator .mul, .digit 5, .digit 0, .percent,
      .equals, .operator .div, .paren, .digit 4, .operator .sub, .digit 1, .decimalPoint, .paren,
      .equals])
    let r : List (Moments × Action) :=
      "2.1÷(4-1.)".toList.map fun ch => (now, .pressSymbol (String.singleton ch))
    InUse c ∧ c.history.entries =
        [⟨"(1.2+3)×50%", 2.1, now⟩, ⟨"2.1÷(4-1.)", 0.7, now⟩] ∧
      ∃ first, build c.config = .ok first ∧
        ((first.run r).press now .equals).outcome = .evaluated 0.7 ∧
        ((first.run r).press now .equals).next.history.entries = [⟨"2.1÷(4-1.)", 0.7, now⟩] := by
  intro now c r
  have hc : InUse c := inUse_new.act now _
  have hentries : c.history.entries =
      [⟨"(1.2+3)×50%", 2.1, now⟩, ⟨"2.1÷(4-1.)", 0.7, now⟩] := by decide +kernel
  have hmem : ⟨"2.1÷(4-1.)", 0.7, now⟩ ∈ c.history.entries := by
    rw [hentries]
    exact List.mem_cons_of_mem _ List.mem_cons_self
  have hr : Spells r "2.1÷(4-1.)" := List.map_map
  obtain ⟨-, first, hfirst, hequals⟩ := run_spells_expression hc hmem (by decide)
  exact ⟨hc, hentries, first, hfirst, hequals r now hr⟩

end Calculator
end PocketCalc
