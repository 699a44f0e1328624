import PocketCalc.Proofs.Evaluation.Meaning
import PocketCalc.Proofs.Number.Rounded
import PocketCalc.Proofs.Session.Coherence

/-!
# A result picked from the history

A recorded result is written, read back, checked against the limit and rounded again when
the equals key follows its selection.  Writing and reading lose nothing
(`writable_of_mem_history`).  The check and the second rounding can: the limit was put to
the value before it was rounded, and a rounded number is not always one that rounding
leaves as it is.  `reload_gives_back_iff` says when the result comes back.
-/

namespace PocketCalc

theorem History.mem_record {h : History} {e e' : HistoryEntry} (he : e' ∈ (h.record e).entries) :
    e' ∈ h.entries ∨ e' = e := by
  have hmem : e' ∈ h.entries ++ [e] := by
    unfold History.record at he
    split at he
    · exact he
    · exact List.mem_of_mem_drop he
  rcases List.mem_append.1 hmem with hold | hnew
  · exact .inl hold
  · exact .inr (List.mem_singleton.1 hnew)

theorem Evaluator.evaluate_number (limit : Float) (text : String) :
    evaluate limit [.number text] = literal limit text :=
  evaluate_tokens limit (e := .number text) trivial (Nat.zero_le _)

namespace Calculator

theorem writable_of_value {c : Calculator} {x : Float} (h : c.value = .ok x) :
    Number.Writable x := by
  obtain ⟨v, hv, rfl⟩ := map_eq_ok.1 h
  exact Number.writable_round (bounded_of_evaluate hv).1 _

theorem writable_step {c c' : Calculator} {now : Timestamp} {o : Outcome}
    (hc : ∀ e ∈ c.history.entries, Number.Writable e.result) (h : Step now c c' o) :
    ∀ e ∈ c'.history.entries, Number.Writable e.result := by
  intro e he
  rcases history_step h with hsame | ⟨x, -, hx, -, hrecord⟩
  · exact hc e (hsame ▸ he)
  · rw [hrecord] at he
    rcases History.mem_record he with hold | rfl
    · exact hc e hold
    · exact writable_of_value hx

/-- Every result in the history is read back from its text. -/
theorem writable_of_mem_history {c : Calculator} (h : InUse c) :
    ∀ e ∈ c.history.entries, Number.Writable e.result := by
  refine h.induction ?_ writable_step
  intro config _ e he
  exact absurd he List.not_mem_nil

/-- The expression that a result is loaded as is worth the result, if the limit admits it. -/
theorem rawValue_load (c : Calculator) {x : Float} (hx : Number.Writable x) :
    (c.load x).rawValue = Evaluator.check c.evaluatorLimit x := by
  show Evaluator.evaluate c.evaluatorLimit [.number (Number.format x)] = _
  rw [Evaluator.evaluate_number, Evaluator.literal, Number.read?_format hx]

theorem equals_load_within (c : Calculator) (now : Timestamp) {x : Float}
    (hx : Number.Writable x) (hlimit : x.abs ≤ c.evaluatorLimit) :
    ((c.load x).press now .equals).outcome = .evaluated (c.shown x) ∧
      ((c.load x).press now .equals).next = (c.load x).succeed (c.shown x) := by
  have hfinite := (Double.isFinite_iff x).2 hx.finite
  have hvalue : (c.load x).value = .ok (c.shown x) :=
    value_of_rawValue ((rawValue_load c hx).trans (if_pos ⟨hfinite, hlimit⟩))
  show ((c.load x).pressEquals now).outcome = _ ∧ ((c.load x).pressEquals now).next = _
  rw [pressEquals_resultShown now rfl hvalue]
  exact ⟨rfl, rfl⟩

theorem equals_load_beyond (c : Calculator) (now : Timestamp) {x : Float}
    (hx : Number.Writable x) (hlimit : ¬ x.abs ≤ c.evaluatorLimit) :
    ((c.load x).press now .equals).outcome = .failed .overflow ∧
      ((c.load x).press now .equals).next = ((c.load x).fail .overflow).next := by
  have hvalue : (c.load x).value = .error .overflow :=
    value_eq_error.2 ((rawValue_load c hx).trans (if_neg fun h => hlimit h.2))
  have hshown : (c.load x).mode = .resultShown := rfl
  have hmode : (c.load x).mode ≠ .error := by rw [hshown]; decide
  have hentering : (c.load x).mode ≠ .entering := by rw [hshown]; decide
  show ((c.load x).pressEquals now).outcome = _ ∧ ((c.load x).pressEquals now).next = _
  rw [pressEquals_fails now hmode (fun h => absurd h hentering) hvalue]
  exact ⟨rfl, rfl⟩

/-- Picks a result from the history and presses the equals key. -/
def reload (c : Calculator) (index : UInt64) (now now' : Timestamp) : Response :=
  (c.press now (.selectHistory index)).next.press now' .equals

theorem reload_eq {c : Calculator} {i : UInt64} {e : HistoryEntry}
    (he : c.history.get? i = some e) (now now' : Timestamp) :
    c.reload i now now' = (c.load e.result).press now' .equals := by
  unfold reload
  rw [next_press]
  simp only [handle, selectEntry, he]

/-- Picking a result and pressing the equals key records nothing.  The result comes back
exactly if it is within the limit and rounding leaves it as it is; otherwise the equals key
overflows or gives the result rounded once more. -/
theorem reload_gives_back_iff {c : Calculator} (h : InUse c) {i : UInt64} {e : HistoryEntry}
    (he : c.history.get? i = some e) (now now' : Timestamp) :
    (c.reload i now now').next.history = c.history ∧
    ((c.reload i now now').outcome = .evaluated e.result ∧
        (c.reload i now now').next.lastResult = some e.result ∧
        (c.reload i now now').next.mode = .resultShown ↔
      e.result.abs ≤ c.config.overflowLimit ∧ c.shown e.result = e.result) ∧
    (c.reload i now now').outcome =
      if e.result.abs ≤ c.config.overflowLimit then .evaluated (c.shown e.result)
      else .failed .overflow := by
  have hx := writable_of_mem_history h e (List.mem_of_getElem? he)
  rw [reload_eq he, ← evaluatorLimit_of_inUse h]
  by_cases hlimit : e.result.abs ≤ c.evaluatorLimit
  · obtain ⟨houtcome, hnext⟩ := equals_load_within c now' hx hlimit
    rw [houtcome, hnext, if_pos hlimit]
    refine ⟨rfl, ⟨fun hr => ⟨hlimit, Outcome.evaluated.inj hr.1⟩, fun hr => ?_⟩, rfl⟩
    rw [hr.2]
    exact ⟨rfl, rfl, rfl⟩
  · obtain ⟨houtcome, hnext⟩ := equals_load_beyond c now' hx hlimit
    rw [houtcome, hnext, if_neg hlimit]
    exact ⟨rfl, ⟨fun hr => (nomatch hr.1), fun hr => absurd hr.1 hlimit⟩, rfl⟩

/-- The third of one comes back as it was recorded. -/
theorem reload_gives_back_third :
    let now : Timestamp := ⟨2024, 1, 2, 3, 4, 5, by decide⟩
    let c := new.act now (.pressAll [.digit 1, .operator .div, .digit 3, .equals])
    InUse c ∧ c.history.get? 0 = some ⟨"1÷3", 0.33333333, now⟩ ∧
      (c.reload 0 now now).outcome = .evaluated 0.33333333 ∧
      (c.reload 0 now now).next.lastResult = some 0.33333333 ∧
      (c.reload 0 now now).next.mode = .resultShown := by
  intro now c
  have hc : InUse c := inUse_new.act now _
  have he : c.history.get? 0 = some ⟨"1÷3", 0.33333333, now⟩ := by decide +kernel
  have hwithin : Float.abs 0.33333333 ≤ c.config.overflowLimit := by decide +kernel
  have hrounded : c.shown 0.33333333 = 0.33333333 := by decide +kernel
  obtain ⟨-, hback, -⟩ := reload_gives_back_iff hc he now now
  exact ⟨hc, he, hback.2 ⟨hwithin, hrounded⟩⟩

/-- With the default settings, a result that comes back rounded once more, and with others
one that rounding has taken beyond the limit. -/
theorem reload_drifts_and_overflows :
    let now : Timestamp := ⟨2024, 1, 2, 3, 4, 5, by decide⟩
    let c := new.act now (.pressAll [.digit 4, .digit 1, .digit 3, .digit 2, .digit 5, .digit 6,
      .digit 8, .digit 1, .decimalPoint, .digit 8, .digit 4, .digit 6, .digit 9, .digit 9,
      .digit 9, .digit 9, .digit 9, .digit 5, .equals])
    let d := (ofConfig { decimalPlaces := 2, overflowLimit := 0.996 }).act now
      (.pressAll [.decimalPoint, .digit 9, .digit 9, .digit 5, .digit 5, .equals])
    (InUse c ∧ (c.history.get? 0).map HistoryEntry.result = some 41325681.847 ∧
      (c.reload 0 now now).outcome = .evaluated 41325681.84700001) ∧
    InUse d ∧ (d.history.get? 0).map HistoryEntry.result = some 1 ∧
      (d.reload 0 now now).outcome = .failed .overflow := by
  intro now c d
  have hc : InUse c := inUse_new.act now _
  have hd : InUse d := (inUse_ofConfig (by decide +kernel)).act now _
  refine ⟨⟨hc, ?_, ?_⟩, hd, ?_, ?_⟩
  · decide +kernel
  · decide +kernel
  · decide +kernel
  · decide +kernel

end Calculator
end PocketCalc
