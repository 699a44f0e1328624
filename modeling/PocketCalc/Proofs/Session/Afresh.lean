import Mathlib.Data.List.Forall2
import PocketCalc.Proofs.Session.Recording

/-!
# Starting afresh

What a calculator remembers of an expression that was cleared or replaced is its history, whether
the history is open, and perhaps its last result.  None of the three has a part in what keys do
later, as long as no entry is picked: `AlikeSince` relates two calculators that differ in nothing
else, and every key takes such a pair to such a pair with the same outcome (`AlikeSince.press`).
So a calculator that starts afresh goes on like one that has not been used
(`reset_leaves_no_residue`).
-/

namespace PocketCalc

namespace Calculator

/-- Two calculators with the same settings and the same limit for their evaluators that differ in
what they have recorded, by `past`, in the overlay, and perhaps in a last result that is not shown.
If `exact`, the last result is the same in any case. -/
structure AlikeSince (past : List (String × Float)) (exact : Prop) (c d : Calculator) : Prop where
  buffer_eq : c.buffer = d.buffer
  liveValue_eq : c.liveValue = d.liveValue
  mode_eq : c.mode = d.mode
  error_eq : c.error = d.error
  lastResult_eq : exact ∨ d.mode = .resultShown → c.lastResult = d.lastResult
  config_eq : c.config = d.config
  evaluatorLimit_eq : c.evaluatorLimit = d.evaluatorLimit
  capacities_eq : c.history.capacity = d.config.historyLimit ∧
    d.history.capacity = d.config.historyLimit
  computations_eq : c.history.computations =
    History.kept d.config.historyLimit (past ++ d.history.computations)

/-- Two responses with the same outcome, after which the calculators are alike. -/
structure AnswerAlike (past : List (String × Float)) (exact : Prop) (r r' : Response) : Prop where
  outcome_eq : r.outcome = r'.outcome
  next : AlikeSince past exact r.next r'.next

namespace AlikeSince

variable {past : List (String × Float)} {exact : Prop} {c d : Calculator}
  (h : AlikeSince past exact c d)
include h

theorem value_eq (b : Buffer) : value { c with buffer := b } = value { d with buffer := b } := by
  simp only [value, h.config_eq, h.evaluatorLimit_eq]

theorem typed (b : Buffer) (live : Option Float) :
    AlikeSince past exact { c with buffer := b, liveValue := live }
      { d with buffer := b, liveValue := live } :=
  { h with buffer_eq := rfl, liveValue_eq := rfl }

theorem restart : AlikeSince past exact c.restart d.restart :=
  { h with
    buffer_eq := rfl, liveValue_eq := rfl, mode_eq := rfl, error_eq := rfl
    lastResult_eq := fun hlast => h.lastResult_eq (hlast.imp_right nofun) }

theorem clear : AlikeSince past exact c.clear d.clear :=
  { h.restart with lastResult_eq := fun _ => rfl }

theorem entering : AlikeSince past exact c.entering d.entering := by
  unfold Calculator.entering
  rw [h.mode_eq]
  split
  · exact h
  · exact h.restart

theorem ignore (events events' : List Event) :
    AnswerAlike past exact (c.ignore events) (d.ignore events') := ⟨rfl, h⟩

theorem edit (b : Buffer) : AnswerAlike past exact (c.edit b) (d.edit b) := by
  by_cases hb : b.isEmpty
  · rw [edit_empty c hb, edit_empty d hb]
    exact ⟨rfl, h.typed b none⟩
  · cases hvalue : value { d with buffer := b } with
    | ok x =>
      rw [edit_ok hb ((h.value_eq b).trans hvalue), edit_ok hb hvalue]
      exact ⟨rfl, h.typed b (some x)⟩
    | error e =>
      rw [edit_error hb ((h.value_eq b).trans hvalue), edit_error hb hvalue]
      exact ⟨rfl, { h with buffer_eq := rfl }⟩

theorem succeed (x : Float) : AlikeSince past exact (c.succeed x) (d.succeed x) :=
  { h with liveValue_eq := rfl, mode_eq := rfl, error_eq := rfl, lastResult_eq := fun _ => rfl }

theorem fail (e : EvalError) : AnswerAlike past exact (c.fail e) (d.fail e) :=
  ⟨rfl, { h with
    liveValue_eq := rfl, mode_eq := rfl, error_eq := rfl
    lastResult_eq := fun hlast => h.lastResult_eq (hlast.imp_right nofun) }⟩

/-- A computation recorded on both sides comes after `past` on one of them. -/
theorem record (now now' : Timestamp) (x : Float) :
    AlikeSince past exact { c.succeed x with history := c.history.record (c.entry now x) }
      { d.succeed x with history := d.history.record (d.entry now' x) } := by
  obtain ⟨hc, hd⟩ := h.capacities_eq
  refine { h.succeed x with capacities_eq := ⟨?_, ?_⟩, computations_eq := ?_ }
  · exact (History.capacity_record _ _).trans hc
  · exact (History.capacity_record _ _).trans hd
  · have hentry : (c.entry now x).computation = (d.entry now' x).computation := by
      simp only [entry, HistoryEntry.computation, h.buffer_eq]
    show (c.history.record _).computations =
      History.kept d.config.historyLimit (past ++ (d.history.record _).computations)
    rw [History.computations_record, History.computations_record, hc, hd, h.computations_eq,
      hentry, History.kept_append, History.kept_append_kept, List.append_assoc]

/-! ## Keys -/

theorem pressOperator (op : Operator) :
    AnswerAlike past exact (c.pressOperator op) (d.pressOperator op) := by
  have hmode := h.mode_eq
  cases hd : d.mode with
  | entering =>
    rw [hd] at hmode
    by_cases hb : d.buffer.isEmpty
    · rw [pressOperator_first op hmode (h.buffer_eq ▸ hb), pressOperator_first op hd hb,
        h.buffer_eq]
      exact h.edit _
    · rw [pressOperator_typing op hmode (h.buffer_eq ▸ hb), pressOperator_typing op hd hb,
        h.buffer_eq]
      cases d.buffer.append (.operator op) with
      | ok b => exact h.edit b
      | error reason => exact h.ignore _ _
  | resultShown =>
    rw [hd] at hmode
    have hlast : c.lastResult = d.lastResult := h.lastResult_eq (.inr hd)
    cases hx : d.lastResult with
    | none =>
      simp only [Calculator.pressOperator, hmode, hd, hlast, hx]
      exact h.ignore _ _
    | some x =>
      rw [pressOperator_resultShown op hmode (hlast.trans hx), pressOperator_resultShown op hd hx]
      exact ⟨rfl, h.restart.typed _ _⟩
  | error =>
    rw [hd] at hmode
    simp only [Calculator.pressOperator, hmode, hd]
    exact h.ignore _ _

theorem pressParen : AnswerAlike past exact c.pressParen d.pressParen := by
  have hedit : AnswerAlike past exact
      (c.entering.edit (c.entering.buffer.appendParen c.entering.config.parenMode))
      (d.entering.edit (d.entering.buffer.appendParen d.entering.config.parenMode)) := by
    rw [h.entering.buffer_eq, h.entering.config_eq]
    exact h.entering.edit _
  unfold Calculator.pressParen
  rw [h.mode_eq]
  cases d.mode with
  | entering | resultShown => exact hedit
  | error => exact h.ignore _ _

theorem pressPercent : AnswerAlike past exact c.pressPercent d.pressPercent := by
  unfold Calculator.pressPercent
  rw [h.mode_eq, h.buffer_eq]
  cases d.mode with
  | entering =>
    cases d.buffer.append .percent with
    | ok b => exact h.edit b
    | error reason => exact h.ignore _ _
  | resultShown | error => exact h.ignore _ _

theorem pressBackspace : AnswerAlike past exact c.pressBackspace d.pressBackspace := by
  unfold Calculator.pressBackspace
  rw [h.mode_eq, h.buffer_eq]
  cases d.mode with
  | entering => exact h.edit _
  | resultShown => exact h.ignore _ _
  | error => exact ⟨rfl, h.restart⟩

theorem pressEquals (now now' : Timestamp) :
    AnswerAlike past exact (c.pressEquals now) (d.pressEquals now') := by
  have hvalue : c.value = d.value := by
    simp only [value, h.config_eq, h.evaluatorLimit_eq, h.buffer_eq]
  unfold Calculator.pressEquals
  rw [h.mode_eq, h.buffer_eq, hvalue]
  cases d.mode with
  | entering =>
    by_cases hb : d.buffer.isEmpty
    · simp only [if_pos hb]
      exact h.ignore _ _
    · simp only [if_neg hb]
      cases d.value with
      | ok x => exact ⟨rfl, h.record now now' x⟩
      | error e => exact h.fail e
  | resultShown =>
    cases d.value with
    | ok x => exact ⟨rfl, h.succeed x⟩
    | error e => exact h.fail e
  | error => exact h.ignore _ _

/-- Every key but one that picks an entry keeps two calculators alike. -/
theorem press {key : Key} (hkey : ∀ i, key ≠ .selectHistory i) (now now' : Timestamp) :
    AnswerAlike past exact (c.press now key) (d.press now' key) := by
  have hedit : ∀ f : Buffer → Buffer, AnswerAlike past exact
      (c.entering.edit (f c.entering.buffer)) (d.entering.edit (f d.entering.buffer)) := by
    intro f
    rw [h.entering.buffer_eq]
    exact h.entering.edit _
  suffices hhandle : AnswerAlike past exact (c.handle now key) (d.handle now' key) from
    ⟨hhandle.outcome_eq, hhandle.next⟩
  unfold handle
  cases key with
  | digit n =>
    cases (Key.digit n).digitChar? with
    | none => exact h.ignore _ _
    | some ch => exact hedit (·.appendDigit ch)
  | decimalPoint => exact hedit Buffer.appendPoint
  | operator op => exact h.pressOperator op
  | paren => exact h.pressParen
  | percent => exact h.pressPercent
  | backspace => exact h.pressBackspace
  | clear => exact ⟨rfl, h.clear⟩
  | equals => exact h.pressEquals now now'
  | openHistory | closeHistory => exact ⟨rfl, { h with }⟩
  | selectHistory i => exact absurd rfl (hkey i)

end AlikeSince

/-! ## Sequences of keys -/

/-- The responses to some keys, pressed one after the other, each at its own moment. -/
def responses (c : Calculator) : List (Timestamp × Key) → List Response
  | [] => []
  | (now, key) :: rest => c.press now key :: (c.press now key).next.responses rest

theorem AlikeSince.responses {past : List (String × Float)} {exact : Prop} {c d : Calculator}
    (h : AlikeSince past exact c d) {r r' : List (Timestamp × Key)}
    (hkeys : r.map Prod.snd = r'.map Prod.snd) (hpicks : ∀ i, .selectHistory i ∉ r.map Prod.snd) :
    List.Forall₂ (AnswerAlike past exact) (c.responses r) (d.responses r') := by
  induction r generalizing r' c d with
  | nil =>
    obtain rfl := List.map_eq_nil_iff.1 hkeys.symm
    exact .nil
  | cons step r ih =>
    obtain ⟨⟨now', key⟩, r', rfl, rfl, hrest⟩ := List.map_eq_cons_iff.1 hkeys.symm
    have hpress := h.press (fun i hi => hpicks i (hi ▸ List.mem_cons_self)) step.1 now'
    exact .cons hpress (ih hpress.next hrest.symm
      fun i hmem => hpicks i (List.mem_cons_of_mem _ hmem))

end Calculator

/-- The keys that begin a new expression where none is being typed.  Digits above nine begin
nothing. -/
inductive Key.Begins : Mode → Key → Prop
  | digit {mode : Mode} {n : UInt8} (hmode : mode ≠ .entering) (hn : n < 10) :
    Begins mode (.digit n)
  | decimalPoint {mode : Mode} (hmode : mode ≠ .entering) : Begins mode .decimalPoint
  | paren : Begins .resultShown .paren

namespace Calculator

variable {c : Calculator}

/-- A key that begins a new expression does so as if a new one had been begun already. -/
theorem handle_of_begins {key : Key} (hkey : key.Begins c.mode) (now : Timestamp) :
    c.handle now key = c.restart.handle now key := by
  have hrestarted : c.restart.entering = c.restart := entering_of_entering rfl
  generalize hmode : c.mode = mode at hkey
  cases hkey with
  | @digit _ n hne hn =>
    rw [handle_digit c now hn, handle_digit c.restart now hn]
    simp only [pressDigit, entering_of_ne (hmode ▸ hne), hrestarted]
  | decimalPoint hne =>
    simp only [handle, pressPoint, entering_of_ne (hmode ▸ hne), hrestarted]
  | paren =>
    have hne : c.mode ≠ .entering := by
      rw [hmode]
      decide
    have hentering : c.restart.mode = .entering := rfl
    simp only [handle, pressParen, hmode, hentering, entering_of_ne hne, hrestarted]

theorem ne_selectHistory_of_begins {mode : Mode} {key : Key} (h : key.Begins mode) (i : UInt64) :
    key ≠ .selectHistory i := by
  cases h with
  | digit | decimalPoint | paren => exact nofun

theorem alikeSince_restart (h : InUse c) :
    AlikeSince c.history.computations False c.restart (ofConfig c.config) where
  buffer_eq := rfl
  liveValue_eq := rfl
  mode_eq := rfl
  error_eq := rfl
  lastResult_eq hlast := hlast.elim False.elim nofun
  config_eq := rfl
  evaluatorLimit_eq := by
    have hlimit := evaluatorLimit_of_inUse h
    exact hlimit
  capacities_eq := by
    have hcapacity := capacity_of_inUse h
    exact ⟨hcapacity, rfl⟩
  computations_eq := by
    have hlength : ∀ n, c.config.historyLimit = some n →
        c.history.computations.length ≤ n.toNat := by
      intro n hn
      rw [History.computations, List.length_map]
      exact (bounded_of_inUse h).length_le n ((capacity_of_inUse h).trans hn)
    show c.history.computations = History.kept c.config.historyLimit (_ ++ [])
    rw [List.append_nil, History.kept_eq_self hlength]

theorem alikeSince_clear (h : InUse c) :
    AlikeSince c.history.computations True c.clear (ofConfig c.config) :=
  { alikeSince_restart h with lastResult_eq := fun _ => rfl }

/-- After a reset a calculator answers keys, but for those that pick an entry, as one does that
was just built with the same settings, and its history is the old one followed by that of the
other, as much of both as is kept.  The key C resets everything; a key that begins a new
expression, and the deletion of an error, perhaps leave the last result, until one is shown. -/
theorem reset_leaves_no_residue (h : InUse c) : ∃ fresh, build c.config = .ok fresh ∧
    ∀ r r' : List (Timestamp × Key), r.map Prod.snd = r'.map Prod.snd →
    (∀ i, .selectHistory i ∉ r.map Prod.snd) → ∀ now now',
      (AlikeSince c.history.computations True (c.press now .clear).next fresh ∧
        List.Forall₂ (AnswerAlike c.history.computations True)
          ((c.press now .clear).next.responses r) (fresh.responses r')) ∧
      (∀ key : Key, key.Begins c.mode →
        List.Forall₂ (AnswerAlike c.history.computations False)
          (c.responses ((now, key) :: r)) (fresh.responses ((now', key) :: r'))) ∧
      (c.mode = .error →
        AlikeSince c.history.computations False (c.press now .backspace).next fresh ∧
        List.Forall₂ (AnswerAlike c.history.computations False)
          ((c.press now .backspace).next.responses r) (fresh.responses r')) := by
  refine ⟨ofConfig c.config, build_eq_ok.2 ⟨errors_of_inUse h, rfl⟩, ?_⟩
  intro r r' hkeys hpicks now now'
  refine ⟨?_, fun key hkey => ?_, fun hmode => ?_⟩
  · have hclear : AlikeSince c.history.computations True (c.press now .clear).next
        (ofConfig c.config) := alikeSince_clear h
    exact ⟨hclear, hclear.responses hkeys hpicks⟩
  · have hpress := (alikeSince_restart h).press (ne_selectHistory_of_begins hkey) now now'
    have hfirst : AnswerAlike c.history.computations False (c.press now key)
        ((ofConfig c.config).press now' key) := by
      constructor
      · rw [outcome_press, handle_of_begins hkey]
        exact hpress.outcome_eq
      · rw [next_press, handle_of_begins hkey]
        exact hpress.next
    exact .cons hfirst (hfirst.next.responses hkeys hpicks)
  · have hback : (c.press now .backspace).next = c.restart := by
      rw [next_press]
      simp only [handle, pressBackspace, hmode]
    rw [hback]
    exact ⟨alikeSince_restart h, (alikeSince_restart h).responses hkeys hpicks⟩

/-- After the division `1÷0` has failed, `4×5=` goes as on a calculator that was just built, with
and without the key C before it, and is recorded after the sum `2+3`. -/
theorem reset_leaves_no_residue_after_error :
    let now : Timestamp := ⟨2024, 1, 2, 3, 4, 5, by decide⟩
    let config : Config := { historyLimit := some 2 }
    let c := (ofConfig config).act now (.pressAll [.digit 2, .operator .add, .digit 3, .equals,
      .digit 1, .operator .div, .digit 0, .equals])
    let r : List (Timestamp × Key) := [(now, .operator .mul), (now, .digit 5), (now, .equals)]
    InUse c ∧ c.mode = .error ∧ c.history.computations = [("2+3", 5)] ∧
      ∃ fresh, build config = .ok fresh ∧
        (fresh.responses ((now, .digit 4) :: r)).map Response.outcome =
          [.updated, .updated, .updated, .evaluated 20] ∧
        List.Forall₂ (AnswerAlike [("2+3", 5)] True)
          ((c.press now .clear).next.responses ((now, .digit 4) :: r))
          (fresh.responses ((now, .digit 4) :: r)) ∧
        List.Forall₂ (AnswerAlike [("2+3", 5)] False) (c.responses ((now, .digit 4) :: r))
          (fresh.responses ((now, .digit 4) :: r)) := by
  intro now config c r
  have hc : InUse c := (inUse_ofConfig (by decide +kernel)).act now _
  have hmode : c.mode = .error := by decide +kernel
  have hpast : c.history.computations = [("2+3", 5)] := by decide +kernel
  have hconfig : c.config = config := by decide +kernel
  have hbegins : (Key.digit 4).Begins c.mode := hmode ▸ .digit nofun (by decide)
  obtain ⟨fresh, hbuild, hreset⟩ := reset_leaves_no_residue hc
  rw [hconfig] at hbuild
  rw [hpast] at hreset
  have hpicks : ∀ i, Key.selectHistory i ∉ r.map Prod.snd := fun i => by simp [r]
  have hpicks' : ∀ i, Key.selectHistory i ∉ ((now, Key.digit 4) :: r).map Prod.snd :=
    fun i => by simp [r]
  obtain ⟨⟨-, hclear⟩, -, -⟩ := hreset _ _ rfl hpicks' now now
  obtain ⟨-, hbegun, -⟩ := hreset _ _ rfl hpicks now now
  have hfresh : fresh = ofConfig config := (build_eq_ok.1 hbuild).2
  refine ⟨hc, hmode, hpast, fresh, hbuild, ?_, hclear, hbegun _ hbegins⟩
  rw [hfresh]
  decide +kernel

end Calculator
end PocketCalc
