import PocketCalc.Proofs.Session.Recording

/-!
# What the events tell

A key reports its own work first and is closed last: as ignored, or with the modes before and
after where these differ, or not at all.  Of the work, only a computation that is recorded leaves
a trace in the history, and it is reported with the line of its entry.  So the history is the end
of what the events of a run have reported as recorded, as much of it as is kept.
-/

namespace PocketCalc

namespace Event

/-- The events that close a key press. -/
def closes : Event → Bool
  | keyIgnored .. | modeChanged .. => true
  | _ => false

/-- The line that is reported as recorded. -/
def recordedLine? : Event → Option String
  | computationRecorded line => some line
  | _ => none

/-- The events, neither closing nor recording, that a key may report when it leads to `after`. -/
inductive Minor (after : Calculator) : Event → Prop
  | livePreview {x : Float} (hx : after.liveValue = some x) : Minor after (.livePreview x)
  | livePreviewUnavailable (e : EvalError) : Minor after (.livePreviewUnavailable e)
  | operatorRejected (reason : BufferError) (op : Operator) :
    Minor after (.operatorRejected reason op)
  | percentRejected (reason : BufferError) : Minor after (.percentRejected reason)
  | evaluationFailed (e : EvalError) (expression : String) :
    Minor after (.evaluationFailed e expression)
  | noSuchEntry (index : UInt64) (length : Nat) : Minor after (.noSuchEntry index length)

variable {after : Calculator} {e : Event}

theorem Minor.not_closes (h : e.Minor after) : ¬ e.closes := by
  cases h <;> exact Bool.false_ne_true

theorem Minor.recordedLine?_eq_none (h : e.Minor after) : e.recordedLine? = none := by
  cases h <;> rfl

theorem Minor.liveValue_eq {x : Float} (h : (Event.livePreview x).Minor after) :
    after.liveValue = some x := by
  cases h with
  | livePreview hx => exact hx

end Event

/-- The line of a computation in the history. -/
def History.lineOf (p : String × Float) : String := p.1 ++ " = " ++ Number.format p.2

theorem History.lines_eq_map (h : History) : h.lines = h.computations.map lineOf :=
  (List.map_map (g := lineOf) (f := HistoryEntry.computation) (l := h.entries)).symm

namespace Calculator

variable {c : Calculator} {now : Timestamp} {times : Moments} {key : Key}

/-! ## The work of a key -/

theorem minor_edit (b : Buffer) : ∀ e ∈ (c.edit b).events, e.Minor (c.edit b).next := by
  by_cases hb : b.isEmpty
  · rw [edit_empty c hb]
    exact List.forall_mem_nil _
  · cases hvalue : value { c with buffer := b } with
    | ok x =>
      rw [edit_ok hb hvalue]
      exact List.forall_mem_singleton.2 (.livePreview rfl)
    | error e =>
      rw [edit_error hb hvalue]
      exact List.forall_mem_singleton.2 (.livePreviewUnavailable e)

theorem minor_handle (hkey : key ≠ .equals) :
    ∀ e ∈ (c.handle now key).events, e.Minor (c.handle now key).next := by
  cases answers_handle c now hkey with
  | edited d b h =>
    rw [h]
    exact minor_edit b
  | changed d h | ignored h =>
    rw [h]
    exact List.forall_mem_nil _
  | operatorRejected reason op h =>
    rw [h]
    exact List.forall_mem_singleton.2 (.operatorRejected reason op)
  | percentRejected reason h =>
    rw [h]
    exact List.forall_mem_singleton.2 (.percentRejected reason)
  | noSuchEntry index length h =>
    rw [h]
    exact List.forall_mem_singleton.2 (.noSuchEntry index length)

theorem completed?_of_ne (hkey : key ≠ .equals) : c.completed? now key = none :=
  if_neg fun h => hkey h.2

theorem completed?_of_evaluated {x : Float} (hmode : c.mode = .entering)
    (h : (c.press now .equals).outcome = .evaluated x) :
    c.completed? now .equals = some (c.buffer.render, x) := by
  unfold completed?
  rw [if_pos ⟨hmode, rfl⟩, h]

theorem completed?_of_not_evaluated (h : ∀ x, (c.press now key).outcome ≠ .evaluated x) :
    c.completed? now key = none := by
  unfold completed?
  split
  · split
    · next x hx => exact absurd hx (h x)
    · rfl
  · rfl

/-- The equals key records an entry and reports its line, or it reports minor events. -/
theorem events_pressEquals (c : Calculator) (now : Timestamp) :
    (∃ x, c.completed? now .equals = some (c.buffer.render, x) ∧
      (c.pressEquals now).events = [.computationRecorded (c.entry now x).line]) ∨
    c.completed? now .equals = none ∧
      ∀ e ∈ (c.pressEquals now).events, e.Minor (c.pressEquals now).next := by
  have hsilent : ∀ r : Response, c.pressEquals now = r → (∀ x, r.outcome ≠ .evaluated x) →
      (∀ e ∈ r.events, e.Minor r.next) → c.completed? now .equals = none ∧
        ∀ e ∈ (c.pressEquals now).events, e.Minor (c.pressEquals now).next := by
    rintro r rfl houtcome hminor
    exact ⟨completed?_of_not_evaluated houtcome, hminor⟩
  have hignored : ∀ x, Outcome.ignored ≠ .evaluated x := fun x => Outcome.noConfusion
  have hfailed : ∀ e x, Outcome.failed e ≠ .evaluated x := fun e x => Outcome.noConfusion
  by_cases hmode : c.mode = .error
  · have hignore : c.pressEquals now = c.ignore := by simp only [pressEquals, hmode]
    exact .inr (hsilent _ hignore hignored (List.forall_mem_nil _))
  · by_cases hempty : c.mode = .entering ∧ c.buffer.isEmpty
    · have hignore : c.pressEquals now = c.ignore := by
        simp only [pressEquals, hempty.1, if_pos hempty.2]
      exact .inr (hsilent _ hignore hignored (List.forall_mem_nil _))
    · have hb : c.mode = .entering → ¬ c.buffer.isEmpty := fun h hb => hempty ⟨h, hb⟩
      cases hvalue : c.value with
      | error e =>
        have hfail := pressEquals_fails now hmode hb hvalue
        exact .inr (hsilent _ hfail (hfailed e)
          (List.forall_mem_singleton.2 (.evaluationFailed e _)))
      | ok x =>
        cases hc : c.mode with
        | entering =>
          have hrecord := pressEquals_entering now hc (hb hc) hvalue
          refine .inl ⟨x, completed?_of_evaluated hc ?_, congrArg Response.events hrecord⟩
          exact congrArg Response.outcome hrecord
        | resultShown =>
          -- The result is given again, but it was recorded before.
          have hagain := pressEquals_resultShown now hc hvalue
          refine .inr ⟨if_neg fun h => ?_, ?_⟩
          · cases hc.symm.trans h.1
          · rw [hagain]
            exact List.forall_mem_nil _
        | error => exact absurd hc hmode

/-- A key reports the line of the computation it completes, or minor events. -/
theorem events_handle (c : Calculator) (now : Timestamp) (key : Key) :
    (∃ p, c.completed? now key = some p ∧
      (c.handle now key).events = [.computationRecorded (History.lineOf p)]) ∨
    c.completed? now key = none ∧
      ∀ e ∈ (c.handle now key).events, e.Minor (c.handle now key).next := by
  by_cases hkey : key = .equals
  · subst hkey
    exact (events_pressEquals c now).imp_left fun ⟨x, hx⟩ => ⟨_, hx⟩
  · exact .inr ⟨completed?_of_ne hkey, minor_handle hkey⟩

theorem not_closes_of_mem_handle : ∀ e ∈ (c.handle now key).events, ¬ e.closes := by
  rcases events_handle c now key with ⟨p, -, hevents⟩ | ⟨-, hminor⟩
  · rw [hevents]
    exact List.forall_mem_singleton.2 Bool.false_ne_true
  · exact fun e he => (hminor e he).not_closes

theorem recordedLines_handle : (c.handle now key).events.filterMap Event.recordedLine? =
    (c.completed? now key).toList.map History.lineOf := by
  rcases events_handle c now key with ⟨p, hp, hevents⟩ | ⟨hnone, hminor⟩
  · rw [hevents, hp]
    rfl
  · rw [hnone]
    exact List.filterMap_eq_nil_iff.2 fun e he => (hminor e he).recordedLine?_eq_none

theorem liveValue_of_preview_mem_handle {x : Float}
    (hx : .livePreview x ∈ (c.handle now key).events) :
    (c.handle now key).next.liveValue = some x := by
  rcases events_handle c now key with ⟨p, -, hevents⟩ | ⟨-, hminor⟩
  · rw [hevents, List.mem_singleton] at hx
    cases hx
  · exact (hminor _ hx).liveValue_eq

/-! ## The press as a whole -/

theorem closes_of_mem_closingEvent {r : Response} {mode : Mode} :
    ∀ e ∈ closingEvent key mode r, e.closes := by
  unfold closingEvent
  split
  · exact List.forall_mem_singleton.2 rfl
  · split
    · exact List.forall_mem_singleton.2 rfl
    · exact List.forall_mem_nil _

theorem recordedLine?_of_closes {e : Event} (h : e.closes) : e.recordedLine? = none := by
  cases e <;> first | rfl | cases h

theorem recordedLines_press : (c.press now key).events.filterMap Event.recordedLine? =
    (c.completed? now key).toList.map History.lineOf := by
  have hclosing : (closingEvent key c.mode (c.handle now key)).filterMap Event.recordedLine? = [] :=
    List.filterMap_eq_nil_iff.2 fun e he =>
      recordedLine?_of_closes (closes_of_mem_closingEvent e he)
  rw [events_press, List.filterMap_append, recordedLines_handle, hclosing, List.append_nil]

/-- The events of a key press, and what they say of it. -/
structure Logged (c : Calculator) (now : Timestamp) (key : Key) : Prop where
  ignored : (c.press now key).outcome = .ignored →
    ∃ work, (c.press now key).events = work ++ [.keyIgnored key c.mode] ∧
      ∀ e ∈ work, ¬ e.closes
  changed : (c.press now key).outcome ≠ .ignored → c.mode ≠ (c.press now key).next.mode →
    ∃ work, (c.press now key).events =
        work ++ [.modeChanged key c.mode (c.press now key).next.mode] ∧
      ∀ e ∈ work, ¬ e.closes
  kept : (c.press now key).outcome ≠ .ignored → c.mode = (c.press now key).next.mode →
    ∀ e ∈ (c.press now key).events, ¬ e.closes
  /-- An entry that is recorded is reported with its line, and is the last one then. -/
  recorded : ∀ s x, c.completed? now key = some (s, x) →
    (c.press now key).events.filterMap Event.recordedLine? = [HistoryEntry.line ⟨s, x, now⟩] ∧
    (c.press now key).next.history = c.history.record ⟨s, x, now⟩ ∧
    (c.press now key).next.history.last? = some ⟨s, x, now⟩
  unrecorded : c.completed? now key = none →
    (c.press now key).events.filterMap Event.recordedLine? = [] ∧
    (c.press now key).next.history = c.history
  preview : ∀ x, .livePreview x ∈ (c.press now key).events →
    (c.press now key).next.liveValue = some x

theorem logged_of_inUse (h : InUse c) (now : Timestamp) (key : Key) : Logged c now key where
  ignored houtcome := ⟨_, congrArg _ (if_pos houtcome), not_closes_of_mem_handle⟩
  changed houtcome hmode :=
    ⟨_, congrArg _ ((if_neg houtcome).trans (if_pos hmode)), not_closes_of_mem_handle⟩
  kept houtcome hmode := by
    have hclosing : closingEvent key c.mode (c.handle now key) = [] :=
      (if_neg houtcome).trans (if_neg (not_not_intro hmode))
    rw [events_press, hclosing, List.append_nil]
    exact not_closes_of_mem_handle
  recorded s x hcompleted := by
    obtain ⟨-, hhistory⟩ := history_press_of_completed hcompleted
    rw [recordedLines_press, hcompleted, hhistory]
    exact ⟨rfl, rfl, (bounded_of_inUse h).last?_record _⟩
  unrecorded hcompleted := by
    rw [recordedLines_press, hcompleted]
    exact ⟨rfl, history_press_of_not_completed hcompleted⟩
  preview x hx := by
    rw [events_press, List.mem_append] at hx
    rcases hx with hx | hx
    · exact liveValue_of_preview_mem_handle hx
    · exact absurd (closes_of_mem_closingEvent _ hx) Bool.false_ne_true

/-! ## Runs -/

/-- The events that an action reports. -/
def reports (c : Calculator) (times : Moments) : Action → List Event
  | .press key => (c.press times.first key).events
  | .pressSymbol symbol =>
    match c.pressSymbol times.first symbol with
    | .ok r => r.events
    | .error _ => []
  | .pressAll keys => (c.pressAll times keys).2.2
  | .selectLine line => (c.selectLine line).events
  | .clear => []

/-- The events that a run reports, in order. -/
def log (c : Calculator) : List (Moments × Action) → List Event
  | [] => []
  | (times, a) :: rest => c.reports times a ++ (c.act times a).log rest

theorem recordedLines_pressAll (keys : List Key) :
    (c.pressAll times keys).2.2.filterMap Event.recordedLine? =
      (c.completedBy times keys).map History.lineOf := by
  induction keys generalizing c times with
  | nil => rfl
  | cons key keys ih =>
    show ((c.press times.first key).events ++
      ((c.press times.first key).next.pressAll times.later keys).2.2).filterMap
        Event.recordedLine? = _
    rw [List.filterMap_append, recordedLines_press, ih, completedBy, List.map_append]

theorem recordedLines_reports (a : Action) :
    (c.reports times a).filterMap Event.recordedLine? =
      (c.completedBy times a.keys).map History.lineOf := by
  cases a with
  | press key =>
    show (c.press times.first key).events.filterMap _ = _
    rw [recordedLines_press, Action.keys, completedBy, completedBy, List.append_nil]
  | pressAll keys => exact recordedLines_pressAll keys
  | clear => rfl
  | pressSymbol symbol =>
    cases h : Key.ofSymbol symbol with
    | ok key =>
      simp only [reports, pressSymbol, Action.keys, h, Except.map, Except.toOption,
        Option.toList_some]
      rw [recordedLines_press, completedBy, completedBy, List.append_nil]
    | error e =>
      simp only [reports, pressSymbol, Action.keys, h, Except.map, Except.toOption]
      rfl
  | selectLine line =>
    show (c.selectLine line).events.filterMap _ = _
    unfold selectLine
    split
    · rfl
    · rfl

theorem recordedLines_log (r : List (Moments × Action)) :
    (c.log r).filterMap Event.recordedLine? = (c.completions r).map History.lineOf := by
  induction r generalizing c with
  | nil => rfl
  | cons step rest ih =>
    obtain ⟨times, a⟩ := step
    rw [log, List.filterMap_append, recordedLines_reports, ih, completions, List.map_append]

/-- The events of a run from the beginning tell the history. -/
theorem kept_recordedLines_log {config : Config} {first : Calculator}
    (h : build config = .ok first) (r : List (Moments × Action)) :
    History.kept config.historyLimit ((first.log r).filterMap Event.recordedLine?) =
      (first.run r).history.lines := by
  obtain ⟨-, rfl⟩ := build_eq_ok.1 h
  have hempty : (ofConfig config).history.Keeps [] := (History.kept_nil _).symm
  have hkeeps : ((ofConfig config).run r).history.computations =
      History.kept config.historyLimit ((ofConfig config).completions r) :=
    (keeps_run hempty r).trans (congrArg (History.kept · _) (capacity_run r))
  rw [recordedLines_log, ← History.map_kept, ← hkeeps, ← History.lines_eq_map]

/-- After every run of a calculator that could be built, the events of a key end as its outcome and
the modes before and after call for, report a computation exactly if it is recorded, with the line
of its entry, and a live value only if it is held then.  Over the whole run, the lines that were
reported as recorded are those of the history, as far as it keeps them. -/
theorem events_tell_history {config : Config} {first : Calculator}
    (h : build config = .ok first) (r : List (Moments × Action)) :
    (∀ now key, Logged (first.run r) now key) ∧
    History.kept config.historyLimit ((first.log r).filterMap Event.recordedLine?) =
      (first.run r).history.lines := by
  have hfirst : InUse first := ⟨first, .built h, .first⟩
  exact ⟨logged_of_inUse (hfirst.run r), kept_recordedLines_log h r⟩

/-- Two of the three computations reported are kept, among a repeated equals key, a failure, a key
that is refused and a result picked from a line.  One more percent sign is refused, too. -/
theorem events_tell_history_limited :
    let now : Timestamp := ⟨2024, 1, 2, 3, 4, 5, by decide⟩
    let config : Config := { historyLimit := some 2 }
    let first := ofConfig config
    let r : List (Moments × Action) := [
      (now, .pressAll [.digit 1, .equals, .equals, .operator .add, .digit 2, .equals]),
      (now, .pressAll [.digit 1, .operator .div, .digit 0, .equals, .percent]),
      (now, .selectLine "1+2 = 3"), (now, .pressSymbol "×"), (now, .pressSymbol "3"),
      (now, .press .equals)]
    build config = .ok first ∧
      (first.log r).filterMap Event.recordedLine? = ["1 = 1", "1+2 = 3", "3×3 = 9"] ∧
      (first.run r).history.lines = ["1+2 = 3", "3×3 = 9"] ∧
      ∃ work, ((first.run r).press now .percent).events =
          work ++ [.keyIgnored .percent .resultShown] ∧ ∀ e ∈ work, ¬ e.closes := by
  intro now config first r
  have hbuild : build config = .ok first := build_eq_ok.2 ⟨by decide +kernel, rfl⟩
  have hlines : (first.log r).filterMap Event.recordedLine? = ["1 = 1", "1+2 = 3", "3×3 = 9"] := by
    decide +kernel
  have hmode : (first.run r).mode = .resultShown := by decide +kernel
  obtain ⟨hlogged, hhistory⟩ := events_tell_history hbuild r
  refine ⟨hbuild, hlines, ?_, ?_⟩
  · rw [← hhistory, hlines]
    decide +kernel
  · rw [← hmode]
    exact (hlogged now .percent).ignored (by decide +kernel)

end Calculator
end PocketCalc
