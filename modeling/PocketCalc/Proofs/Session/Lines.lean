import PocketCalc.Calculator.View
import PocketCalc.Proofs.Session.Tidy

/-!
# Lines of the history

A line shows an expression, an equals sign and a result.  No expression that can be typed has an
equals sign in it, so what follows the first one is the text of the result, which is read back as
it was recorded.  Picking a line is therefore the same as picking its entry.
-/

namespace PocketCalc

theorem Buffer.not_mem_alphabet_equals : '=' ∉ Buffer.alphabet := by decide

theorem Buffer.not_isBlank_of_mem_alphabet {c : Char} (hc : c ∈ Buffer.alphabet) :
    ¬ Blank.isBlank c := by
  have hall : Buffer.alphabet.all fun c => ¬ Blank.isBlank c := by decide
  exact of_decide_eq_true (List.all_eq_true.1 hall c hc)

theorem Number.mem_alphabet_of_format {x : Float} (hx : x.isFinite) {c : Char}
    (hc : c ∈ (Number.format x).toList) : c ∈ Buffer.alphabet := by
  refine (Calculator.entered_load hx .balanced).mem_alphabet ?_
  show c ∈ [Token.number (Number.format x)].flatMap Token.chars
  rw [List.flatMap_singleton]
  exact hc

namespace HistoryEntry

/-- What follows the first equals sign of a line is the result. -/
theorem parseResult_line {e : HistoryEntry} (hexpression : '=' ∉ e.expression.toList)
    (hx : Number.Writable e.result) : parseResult e.line = some e.result := by
  have hfinite : e.result.isFinite := (Double.isFinite_iff _).2 hx.finite
  have hline : e.line.toList =
      (e.expression.toList ++ [' ']) ++ '=' :: ' ' :: (Number.format e.result).toList := by
    simp [line]
  have hbefore : ∀ c ∈ e.expression.toList ++ [' '], decide (c ≠ '=') = true := by
    intro c hc
    rcases List.mem_append.1 hc with hc | hc
    · exact decide_eq_true fun h => hexpression (h ▸ hc)
    · rw [List.mem_singleton.1 hc]
      decide
  have hafter : Blank.trim (' ' :: (Number.format e.result).toList) =
      (Number.format e.result).toList := by
    rw [Blank.trim_cons (by decide)]
    exact Blank.trim_eq_self fun c hc =>
      Buffer.not_isBlank_of_mem_alphabet (Number.mem_alphabet_of_format hfinite hc)
  unfold parseResult
  rw [hline, List.dropWhile_append_of_pos hbefore, List.dropWhile_cons_of_neg (by decide)]
  simp only [hafter, Number.read?_format hx]
  exact Option.filter_some_pos hfinite

theorem Computes.parseResult_line {config : Config} {e : HistoryEntry} {b : Buffer}
    (h : e.Computes config b) : parseResult e.line = some e.result := by
  refine HistoryEntry.parseResult_line (fun hc => ?_) h.writable
  rw [h.expression_eq] at hc
  exact Buffer.not_mem_alphabet_equals (h.entered.mem_alphabet_of_render hc)

end HistoryEntry

namespace Calculator

theorem selectLine_of_parseResult {line : String} {x : Float} (c : Calculator)
    (h : HistoryEntry.parseResult line = some x) : c.selectLine line = ⟨c.load x, .updated, []⟩ := by
  simp only [selectLine, h]

theorem selectEntry_of_get? {c : Calculator} {i : UInt64} {e : HistoryEntry}
    (h : c.history.get? i = some e) : c.selectEntry i = ⟨c.load e.result, .updated, []⟩ := by
  simp only [selectEntry, h]

/-- The line shown for an entry gives back its result, and picking the line leads to the same
calculator as picking the entry. -/
theorem selectLine_agrees_with_selectHistory {c : Calculator} (h : InUse c) (now : Timestamp)
    {i : UInt64} (hi : i.toNat < c.history.length) :
    ∃ e line, c.history.get? i = some e ∧ c.view.historyEntries[i.toNat]? = some line ∧
      HistoryEntry.parseResult line = some e.result ∧
      (c.selectLine line).outcome = .updated ∧
      (c.press now (.selectHistory i)).outcome = .updated ∧
      (c.selectLine line).next = (c.press now (.selectHistory i)).next := by
  obtain ⟨e, he⟩ : ∃ e, c.history.get? i = some e := ⟨_, List.getElem?_eq_getElem hi⟩
  have hline : c.view.historyEntries[i.toNat]? = some e.line := by
    show (c.history.entries.map HistoryEntry.line)[i.toNat]? = some e.line
    rw [List.getElem?_map, show c.history.entries[i.toNat]? = some e from he]
    rfl
  obtain ⟨b, hb⟩ := (tidy_of_inUse h).history e (List.mem_of_getElem? he)
  have hparse := hb.parseResult_line
  have hselect := selectLine_of_parseResult c hparse
  have hentry := selectEntry_of_get? he
  refine ⟨e, e.line, he, hline, hparse, ?_, ?_, ?_⟩
  · rw [hselect]
  · rw [outcome_press]
    show (c.selectEntry i).outcome = .updated
    rw [hentry]
  · rw [next_press, hselect]
    show _ = (c.selectEntry i).next
    rw [hentry]

/-- The second of two entries: the result of `1-3`, carried on, times five percent. -/
theorem selectLine_agrees_with_selectHistory_negative :
    let now : Timestamp := ⟨2024, 1, 2, 3, 4, 5, by decide⟩
    let c := new.act now (.pressAll [.digit 1, .operator .sub, .digit 3, .equals,
      .operator .mul, .digit 5, .percent, .equals])
    InUse c ∧ c.view.historyEntries[1]? = some "-2×5% = -0.1" ∧
      HistoryEntry.parseResult "-2×5% = -0.1" = some (-0.1) ∧
      (c.selectLine "-2×5% = -0.1").next = (c.press now (.selectHistory 1)).next := by
  intro now c
  have hc : InUse c := inUse_new.act now _
  have hi : (1 : UInt64).toNat < c.history.length := by decide +kernel
  have hshown : c.view.historyEntries[1]? = some "-2×5% = -0.1" := by decide +kernel
  obtain ⟨e, line, he, hline, hparse, -, -, hnext⟩ :=
    selectLine_agrees_with_selectHistory hc now hi
  obtain rfl : line = "-2×5% = -0.1" := Option.some.inj (hline.symm.trans hshown)
  have hresult : e.result = -0.1 := by
    have hget : c.history.get? 1 = some ⟨"-2×5%", -0.1, now⟩ := by decide +kernel
    obtain rfl : e = ⟨"-2×5%", -0.1, now⟩ := Option.some.inj (he.symm.trans hget)
    rfl
  exact ⟨hc, hshown, hresult ▸ hparse, hnext⟩

end Calculator
end PocketCalc
