import PocketCalc.Proofs.Session.Tidy

/-!
# Finite values

An infinity or a value that is not a number can be written in a number token, can come out of an
operation and can be scaled up to while rounding, but the check of every value refuses it before
rounding, and rounding does not bring it back.  So nothing that a calculator holds is other than
finite: `FiniteValues` is kept by every step on its own, whatever the settings are and whatever
lines are read.
-/

namespace PocketCalc
namespace Calculator

/-- All numbers that a calculator holds are finite. -/
structure FiniteValues (c : Calculator) : Prop where
  liveValue : ∀ x, c.liveValue = some x → x.isFinite
  lastResult : ∀ x, c.lastResult = some x → x.isFinite
  history : ∀ e ∈ c.history.entries, e.result.isFinite

variable {c c' : Calculator} {now : Timestamp} {o : Outcome}

theorem finite_of_value {x : Float} (hx : c.value = .ok x) : x.isFinite :=
  finite_of_writable (writable_of_value hx)

/-- The number that a step gives as a result is finite. -/
theorem finite_of_step_evaluated {x : Float} (h : Step now c c' (.evaluated x)) : x.isFinite := by
  cases h with
  | recorded _ hx | shownAgain _ hx => exact finite_of_value hx

/-- A live value that was not there before is the value of the expression. -/
theorem liveValue_edit {b : Buffer} {x : Float} (h : (c.edit b).next.liveValue = some x) :
    c.liveValue = some x ∨ value { c with buffer := b } = .ok x := by
  by_cases hb : b.isEmpty
  · rw [edit_empty c hb] at h
    cases h
  · cases hvalue : value { c with buffer := b } with
    | ok y =>
      rw [edit_ok hb hvalue] at h
      exact .inr (congrArg Except.ok (Option.some.inj h))
    | error e =>
      rw [edit_error hb hvalue] at h
      exact .inl h

namespace FiniteValues

variable (h : FiniteValues c)
include h

theorem restart : FiniteValues c.restart := { h with liveValue := nofun }

theorem edit (b : Buffer) : FiniteValues (c.edit b).next where
  liveValue x hx := by
    rcases liveValue_edit hx with hold | hvalue
    · exact h.liveValue x hold
    · exact finite_of_value hvalue
  lastResult := by
    obtain ⟨live, hnext⟩ := exists_next_edit c b
    rw [hnext]
    exact h.lastResult
  history := by
    rw [history_edit]
    exact h.history

theorem load {x : Float} (hx : x.isFinite) : FiniteValues (c.load x) where
  liveValue _ hy := Option.some.inj hy ▸ hx
  lastResult _ hy := Option.some.inj hy ▸ hx
  history := h.history

theorem succeed {x : Float} (hx : x.isFinite) : FiniteValues (c.succeed x) where
  liveValue _ hy := Option.some.inj hy ▸ hx
  lastResult _ hy := Option.some.inj hy ▸ hx
  history := h.history

theorem record {e : HistoryEntry} (he : e.result.isFinite) :
    FiniteValues { c with history := c.history.record e } where
  liveValue := h.liveValue
  lastResult := h.lastResult
  history e' he' := by
    rcases History.mem_record he' with hold | rfl
    · exact h.history e' hold
    · exact he

theorem step (hstep : Step now c c' o) : FiniteValues c' := by
  cases hstep with
  | refused => exact h
  | overlaid => exact { h with }
  | typed => exact h.edit _
  | begun => exact h.restart.edit _
  | continued op _ hlast =>
    exact { h.restart with liveValue := fun _ hy => Option.some.inj hy ▸ h.lastResult _ hlast }
  | restarted => exact h.restart
  | cleared => exact { h.restart with lastResult := nofun }
  | @recorded x _ hx =>
    have hfinite : x.isFinite := finite_of_value hx
    have hentry : (c.entry now x).result.isFinite := hfinite
    exact (h.succeed hfinite).record hentry
  | shownAgain _ hx => exact h.succeed (finite_of_value hx)
  | failed => exact { h with liveValue := nofun }
  | selected he => exact h.load (h.history _ (List.mem_of_getElem? he))
  | read hx => exact h.load hx

end FiniteValues

theorem finiteValues_of_inUse (h : InUse c) : FiniteValues c :=
  h.induction (fun _ _ => ⟨nofun, nofun, fun _ he => absurd he List.not_mem_nil⟩)
    fun hc hstep => hc.step hstep

/-- The live value of a calculator in use is a finite number. -/
theorem finite_liveValue (h : InUse c) {x : Float} (hx : c.liveValue = some x) : x.isFinite :=
  (finiteValues_of_inUse h).liveValue x hx

/-- What an evaluation accepts is finite and at most the limit in magnitude, whatever the texts of
the numbers and whatever the limit is, and what a calculator in use holds and answers is finite. -/
theorem accepted_values_are_finite :
    (∀ (limit : Float) (ts : List Token) (x : Float),
      Evaluator.evaluate limit ts = .ok x → x.isFinite ∧ x.abs ≤ limit) ∧
    ∀ c, InUse c → FiniteValues c ∧
      ∀ now key x, (c.press now key).outcome = .evaluated x → x.isFinite := by
  refine ⟨fun limit ts x hx => bounded_of_evaluate hx, fun c hc => ⟨finiteValues_of_inUse hc, ?_⟩⟩
  intro now key x houtcome
  have hstep := step_press c now key
  rw [houtcome] at hstep
  exact finite_of_step_evaluated hstep

/-- A literal with an exponent is accepted at its limit.  A line with a great result is picked and
one with an infinite result is not, and the quotient is too great for rounding to change it. -/
theorem accepted_values_are_finite_great :
    let now : Timestamp := ⟨2024, 1, 2, 3, 4, 5, by decide⟩
    let c := (ofConfig { decimalPlaces := 15 }).run [(now, .selectLine "a = 1e30"),
      (now, .selectLine "b = inf"), (now, .pressAll [.operator .div, .digit 8])]
    Evaluator.evaluate 1000 [.number "1e3"] = .ok 1000 ∧
      Float.isFinite 1000 ∧ Float.abs 1000 ≤ 1000 ∧
      InUse c ∧ c.liveValue = some (1e30 / 8) ∧ FiniteValues c ∧
      (c.press now .equals).outcome = .evaluated (1e30 / 8) ∧ (1e30 / 8 : Float).isFinite := by
  intro now c
  have hc : InUse c := (inUse_ofConfig (by decide +kernel)).run _
  have hliteral : Evaluator.evaluate 1000 [.number "1e3"] = .ok 1000 := by decide +kernel
  have houtcome : (c.press now .equals).outcome = .evaluated (1e30 / 8) := by decide +kernel
  obtain ⟨hevaluate, hsession⟩ := accepted_values_are_finite
  obtain ⟨hfinite, hle⟩ := hevaluate 1000 _ _ hliteral
  obtain ⟨hvalues, hanswer⟩ := hsession c hc
  exact ⟨hliteral, hfinite, hle, hc, by decide +kernel, hvalues, houtcome,
    hanswer now .equals _ houtcome⟩

end Calculator
end PocketCalc
