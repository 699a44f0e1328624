import PocketCalc.Calculator.Run

/-!
# Steps of a session

`Step` lists all that a key or a line of text can do to a calculator, each case with what
it asks of the calculator before and with its outcome.  What every case keeps holds of
every calculator in use (`InUse.induction`).
-/

namespace PocketCalc

/-- What a key makes of the buffer while an expression is being typed. -/
inductive Buffer.Edited (parenMode : ParenMode) (b : Buffer) : Buffer → Prop
  | digit {c : Char} (hc : c.isDigit) : Edited parenMode b (b.appendDigit c)
  | point : Edited parenMode b b.appendPoint
  | operator {op : Operator} {b' : Buffer} (h : b.append (.operator op) = .ok b') :
    Edited parenMode b b'
  | firstOperator {op : Operator} {b' : Buffer} (hb : b.isEmpty)
    (h : (b.appendDigit '0').append (.operator op) = .ok b') : Edited parenMode b b'
  | paren : Edited parenMode b (b.appendParen parenMode)
  | percent {b' : Buffer} (h : b.append .percent = .ok b') : Edited parenMode b b'
  | backspace : Edited parenMode b b.backspace

/-- What a key begins a new expression with, in a mode where none is being typed. -/
inductive Buffer.Begun (parenMode : ParenMode) : Mode → Buffer → Prop
  | digit {mode : Mode} {c : Char} (hc : c.isDigit) :
    Begun parenMode mode (Buffer.empty.appendDigit c)
  | point {mode : Mode} : Begun parenMode mode Buffer.empty.appendPoint
  | paren : Begun parenMode .resultShown (Buffer.empty.appendParen parenMode)

/-- What is read out of a line is a finite number. -/
theorem HistoryEntry.isFinite_of_parseResult {line : String} {x : Float}
    (h : HistoryEntry.parseResult line = some x) : x.isFinite := by
  unfold HistoryEntry.parseResult at h
  split at h
  · cases h
  · exact (Option.filter_eq_some_iff.1 h).2

namespace Calculator

/-- The steps of a session, each with its outcome. -/
inductive Step (now : Timestamp) (c : Calculator) : Calculator → Outcome → Prop
  | refused : Step now c c .ignored
  | overlaid (isOpen : Bool) : Step now c { c with historyOpen := isOpen } .updated
  | typed {b : Buffer} (hmode : c.mode = .entering) (hb : c.buffer.Edited c.config.parenMode b) :
    Step now c (c.edit b).next .updated
  | begun {b : Buffer} (hmode : c.mode ≠ .entering)
    (hb : Buffer.Begun c.config.parenMode c.mode b) : Step now c (c.restart.edit b).next .updated
  /-- An operator after a result continues from it. -/
  | continued (op : Operator) {x : Float} (hmode : c.mode = .resultShown)
    (hlast : c.lastResult = some x) :
    Step now c { c.restart with
      buffer := (Buffer.seeded (Number.format x)).push (.operator op)
      liveValue := some x } .updated
  | restarted (hmode : c.mode = .error) : Step now c c.restart .updated
  | cleared : Step now c c.clear .updated
  | recorded {x : Float} (hmode : c.mode = .entering) (hx : c.value = .ok x) :
    Step now c { c.succeed x with history := c.history.record (c.entry now x) } (.evaluated x)
  | shownAgain {x : Float} (hmode : c.mode = .resultShown) (hx : c.value = .ok x) :
    Step now c (c.succeed x) (.evaluated x)
  | failed {e : EvalError} (hmode : c.mode ≠ .error)
    (hb : c.mode = .entering → ¬ c.buffer.isEmpty) (he : c.value = .error e) :
    Step now c (c.fail e).next (.failed e)
  | selected {index : UInt64} {e : HistoryEntry} (he : c.history.get? index = some e) :
    Step now c (c.load e.result) .updated
  | read {x : Float} (hx : x.isFinite) : Step now c (c.load x) .updated

/-! ## Typing -/

theorem edit_empty (c : Calculator) {b : Buffer} (hb : b.isEmpty) :
    c.edit b = ⟨{ c with buffer := b, liveValue := none }, .updated, []⟩ := if_pos hb

theorem edit_ok {c : Calculator} {b : Buffer} {x : Float} (hb : ¬ b.isEmpty)
    (hx : value { c with buffer := b } = .ok x) :
    c.edit b = ⟨{ c with buffer := b, liveValue := some x }, .updated, [.livePreview x]⟩ := by
  simp only [edit, if_neg hb, hx]

theorem edit_error {c : Calculator} {b : Buffer} {e : EvalError} (hb : ¬ b.isEmpty)
    (he : value { c with buffer := b } = .error e) :
    c.edit b = ⟨{ c with buffer := b }, .updated, [.livePreviewUnavailable e]⟩ := by
  simp only [edit, if_neg hb, he]

theorem outcome_edit (c : Calculator) (b : Buffer) : (c.edit b).outcome = .updated := by
  by_cases hb : b.isEmpty
  · rw [edit_empty c hb]
  · cases hx : value { c with buffer := b } with
    | ok x => rw [edit_ok hb hx]
    | error e => rw [edit_error hb hx]

theorem exists_next_edit (c : Calculator) (b : Buffer) :
    ∃ live, (c.edit b).next = { c with buffer := b, liveValue := live } := by
  by_cases hb : b.isEmpty
  · rw [edit_empty c hb]
    exact ⟨none, rfl⟩
  · cases hx : value { c with buffer := b } with
    | ok x =>
      rw [edit_ok hb hx]
      exact ⟨some x, rfl⟩
    | error e =>
      rw [edit_error hb hx]
      exact ⟨c.liveValue, rfl⟩

theorem entering_of_entering {c : Calculator} (h : c.mode = .entering) : c.entering = c := if_pos h

theorem entering_of_ne {c : Calculator} (h : c.mode ≠ .entering) : c.entering = c.restart :=
  if_neg h

/-! ## The equals key -/

theorem pressEquals_entering {c : Calculator} {x : Float} (now : Timestamp)
    (hmode : c.mode = .entering) (hb : ¬ c.buffer.isEmpty) (hx : c.value = .ok x) :
    c.pressEquals now =
      ⟨{ c.succeed x with history := c.history.record (c.entry now x) }, .evaluated x,
        [.computationRecorded (c.entry now x).line]⟩ := by
  simp only [pressEquals, hmode, if_neg hb, hx]

theorem pressEquals_resultShown {c : Calculator} {x : Float} (now : Timestamp)
    (hmode : c.mode = .resultShown) (hx : c.value = .ok x) :
    c.pressEquals now = ⟨c.succeed x, .evaluated x, []⟩ := by
  simp only [pressEquals, hmode, hx]

theorem pressEquals_fails {c : Calculator} {e : EvalError} (now : Timestamp)
    (hmode : c.mode ≠ .error) (hb : c.mode = .entering → ¬ c.buffer.isEmpty)
    (he : c.value = .error e) : c.pressEquals now = c.fail e := by
  unfold pressEquals
  cases hc : c.mode with
  | entering => simp only [if_neg (hb hc), he]
  | resultShown => simp only [he]
  | error => exact absurd hc hmode

/-! ## The operator key -/

/-- The zero that an operator typed first is put after lets it follow. -/
theorem append_operator_zero {b : Buffer} (hb : b.isEmpty) (op : Operator) :
    (b.appendDigit '0').append (.operator op) = .ok ((b.appendDigit '0').push (.operator op)) := by
  obtain rfl : b = .empty := congrArg Buffer.mk (List.isEmpty_iff.1 hb)
  rfl

theorem pressOperator_first {c : Calculator} (op : Operator) (hmode : c.mode = .entering)
    (hb : c.buffer.isEmpty) :
    c.pressOperator op = c.edit ((c.buffer.appendDigit '0').push (.operator op)) := by
  simp only [pressOperator, hmode, if_pos hb, append_operator_zero hb, edit]

theorem pressOperator_typing {c : Calculator} (op : Operator) (hmode : c.mode = .entering)
    (hb : ¬ c.buffer.isEmpty) :
    c.pressOperator op =
      match c.buffer.append (.operator op) with
      | .ok b => c.edit b
      | .error reason => c.ignore [.operatorRejected reason op] := by
  cases happend : c.buffer.append (.operator op) with
  | ok b | error reason => simp only [pressOperator, hmode, if_neg hb, happend]

theorem pressOperator_resultShown {c : Calculator} {x : Float} (op : Operator)
    (hmode : c.mode = .resultShown) (hlast : c.lastResult = some x) :
    c.pressOperator op =
      ⟨{ c.restart with
          buffer := (Buffer.seeded (Number.format x)).push (.operator op)
          liveValue := some x }, .updated, []⟩ := by
  simp only [pressOperator, hmode, hlast]
  rfl

/-! ## One lemma for each kind of key -/

variable (c : Calculator) (now : Timestamp)

/-- What the mode makes of a key that types something in every mode but perhaps the error
mode. -/
theorem step_edit_entering (f : Buffer → Buffer)
    (hedit : c.mode = .entering → c.buffer.Edited c.config.parenMode (f c.buffer))
    (hbegin : c.mode ≠ .entering → Buffer.Begun c.config.parenMode c.mode (f .empty)) :
    Step now c (c.entering.edit (f c.entering.buffer)).next
      (c.entering.edit (f c.entering.buffer)).outcome := by
  rw [outcome_edit]
  by_cases hmode : c.mode = .entering
  · rw [entering_of_entering hmode]
    exact .typed hmode (hedit hmode)
  · rw [entering_of_ne hmode]
    exact .begun hmode (hbegin hmode)

theorem isDigit_of_digitChar? {key : Key} {digit : Char} (h : key.digitChar? = some digit) :
    digit.isDigit := by
  cases key with
  | digit n =>
    simp only [Key.digitChar?] at h
    split at h
    · next hn =>
      obtain rfl := Option.some.inj h
      rw [Nat.isDigit_digitChar]
      exact decide_eq_true (UInt8.lt_iff_toNat_lt.1 hn)
    · cases h
  | _ => cases h

theorem handle_digit {n : UInt8} (hn : n < 10) :
    c.handle now (.digit n) = c.pressDigit (Nat.digitChar n.toNat) := by
  have hdigit : (Key.digit n).digitChar? = some (Nat.digitChar n.toNat) := if_pos hn
  simp only [handle, hdigit]

theorem step_operator (op : Operator) :
    Step now c (c.pressOperator op).next (c.pressOperator op).outcome := by
  cases hmode : c.mode with
  | entering =>
    by_cases hempty : c.buffer.isEmpty
    · rw [pressOperator_first op hmode hempty, outcome_edit]
      exact .typed hmode (.firstOperator hempty (append_operator_zero hempty op))
    · rw [pressOperator_typing op hmode hempty]
      split
      · next b hb =>
        rw [outcome_edit]
        exact .typed hmode (.operator hb)
      · exact .refused
  | resultShown =>
    cases hlast : c.lastResult with
    | none =>
      have hignore : c.pressOperator op = c.ignore := by simp only [pressOperator, hmode, hlast]
      rw [hignore]
      exact .refused
    | some x =>
      rw [pressOperator_resultShown op hmode hlast]
      exact .continued op hmode hlast
  | error =>
    have hignore : c.pressOperator op = c.ignore := by simp only [pressOperator, hmode]
    rw [hignore]
    exact .refused

theorem step_paren : Step now c c.pressParen.next c.pressParen.outcome := by
  have hconfig : c.entering.config = c.config := by
    unfold entering
    split <;> rfl
  unfold pressParen
  cases hmode : c.mode with
  | error => exact .refused
  | entering =>
    simp only [hconfig]
    exact step_edit_entering c now (·.appendParen c.config.parenMode) (fun _ => .paren)
      fun h => absurd hmode h
  | resultShown =>
    simp only [hconfig]
    refine step_edit_entering c now (·.appendParen c.config.parenMode) (fun _ => .paren) fun _ => ?_
    rw [hmode]
    exact .paren

theorem step_percent : Step now c c.pressPercent.next c.pressPercent.outcome := by
  unfold pressPercent
  cases hmode : c.mode with
  | entering =>
    simp only
    split
    · next b hb =>
      rw [outcome_edit]
      exact .typed hmode (.percent hb)
    · exact .refused
  | _ => exact .refused

theorem step_backspace : Step now c c.pressBackspace.next c.pressBackspace.outcome := by
  unfold pressBackspace
  cases hmode : c.mode with
  | entering =>
    show Step now c (c.edit c.buffer.backspace).next (c.edit c.buffer.backspace).outcome
    rw [outcome_edit]
    exact .typed hmode .backspace
  | resultShown => exact .refused
  | error => exact .restarted hmode

theorem step_equals : Step now c (c.pressEquals now).next (c.pressEquals now).outcome := by
  by_cases hmode : c.mode = .error
  · have hignore : c.pressEquals now = c.ignore := by simp only [pressEquals, hmode]
    rw [hignore]
    exact .refused
  · by_cases hempty : c.mode = .entering ∧ c.buffer.isEmpty
    · have hignore : c.pressEquals now = c.ignore := by
        simp only [pressEquals, hempty.1, if_pos hempty.2]
      rw [hignore]
      exact .refused
    · have hb : c.mode = .entering → ¬ c.buffer.isEmpty := fun h hb => hempty ⟨h, hb⟩
      cases hvalue : c.value with
      | error e =>
        rw [pressEquals_fails now hmode hb hvalue]
        exact .failed hmode hb hvalue
      | ok x =>
        cases hc : c.mode with
        | entering =>
          rw [pressEquals_entering now hc (hb hc) hvalue]
          exact .recorded hc hvalue
        | resultShown =>
          rw [pressEquals_resultShown now hc hvalue]
          exact .shownAgain hc hvalue
        | error => exact absurd hc hmode

theorem step_press (key : Key) : Step now c (c.press now key).next (c.press now key).outcome := by
  rw [next_press, outcome_press]
  unfold handle
  cases key with
  | digit n =>
    simp only
    split
    · next digit hdigit =>
      have hc := isDigit_of_digitChar? hdigit
      exact step_edit_entering c now (·.appendDigit digit) (fun _ => .digit hc) fun _ => .digit hc
    · exact .refused
  | decimalPoint =>
    exact step_edit_entering c now Buffer.appendPoint (fun _ => .point) fun _ => .point
  | operator op => exact step_operator c now op
  | paren => exact step_paren c now
  | percent => exact step_percent c now
  | backspace => exact step_backspace c now
  | clear => exact .cleared
  | equals => exact step_equals c now
  | openHistory => exact .overlaid true
  | closeHistory => exact .overlaid false
  | selectHistory index =>
    show Step now c (c.selectEntry index).next (c.selectEntry index).outcome
    unfold selectEntry
    cases he : c.history.get? index with
    | some e => exact .selected he
    | none => exact .refused

theorem step_selectLine (line : String) :
    Step now c (c.selectLine line).next (c.selectLine line).outcome := by
  unfold selectLine
  cases hx : HistoryEntry.parseResult line with
  | none => exact .refused
  | some x => exact .read (HistoryEntry.isFinite_of_parseResult hx)

/-! ## What a key answers -/

/-- The answers of the keys but the equals key: a buffer is put in place, or something else is
changed and nothing reported, or the key is refused, perhaps with a reason. -/
inductive Answers (r : Response) : Prop
  | edited (d : Calculator) (b : Buffer) (h : r = d.edit b)
  | changed (d : Calculator) (h : r = ⟨d, .updated, []⟩)
  | ignored (h : r = c.ignore)
  | operatorRejected (reason : BufferError) (op : Operator)
    (h : r = c.ignore [.operatorRejected reason op])
  | percentRejected (reason : BufferError) (h : r = c.ignore [.percentRejected reason])
  | noSuchEntry (index : UInt64) (length : Nat) (h : r = c.ignore [.noSuchEntry index length])

theorem answers_operator (op : Operator) : c.Answers (c.pressOperator op) := by
  cases hmode : c.mode with
  | entering =>
    by_cases hempty : c.buffer.isEmpty
    · exact .edited _ _ (pressOperator_first op hmode hempty)
    · rw [pressOperator_typing op hmode hempty]
      cases c.buffer.append (.operator op) with
      | ok b => exact .edited c b rfl
      | error reason => exact .operatorRejected reason op rfl
  | resultShown =>
    cases hlast : c.lastResult with
    | none => exact .ignored (by simp only [pressOperator, hmode, hlast])
    | some x => exact .changed _ (pressOperator_resultShown op hmode hlast)
  | error => exact .ignored (by simp only [pressOperator, hmode])

theorem answers_percent : c.Answers c.pressPercent := by
  unfold pressPercent
  cases c.mode with
  | entering =>
    cases c.buffer.append .percent with
    | ok b => exact .edited c b rfl
    | error reason => exact .percentRejected reason rfl
  | resultShown | error => exact .ignored rfl

theorem answers_handle {key : Key} (hkey : key ≠ .equals) : c.Answers (c.handle now key) := by
  cases key with
  | digit n =>
    unfold handle
    cases (Key.digit n).digitChar? with
    | some digit => exact .edited _ _ rfl
    | none => exact .ignored rfl
  | decimalPoint => exact .edited _ _ rfl
  | operator op => exact answers_operator c op
  | paren =>
    show c.Answers c.pressParen
    unfold pressParen
    cases c.mode with
    | error => exact .ignored rfl
    | entering | resultShown => exact .edited _ _ rfl
  | percent => exact answers_percent c
  | backspace =>
    show c.Answers c.pressBackspace
    unfold pressBackspace
    cases c.mode with
    | entering => exact .edited _ _ rfl
    | resultShown => exact .ignored rfl
    | error => exact .changed _ rfl
  | clear | openHistory | closeHistory => exact .changed _ rfl
  | equals => exact absurd rfl hkey
  | selectHistory index =>
    show c.Answers (c.selectEntry index)
    unfold selectEntry
    cases c.history.get? index with
    | some e => exact .changed _ rfl
    | none => exact .noSuchEntry index _ rfl

/-! ## What steps leave alone -/

variable {c now}

theorem buffer_edit (b : Buffer) : (c.edit b).next.buffer = b := by
  obtain ⟨live, h⟩ := exists_next_edit c b
  rw [h]

theorem history_edit (b : Buffer) : (c.edit b).next.history = c.history := by
  obtain ⟨live, h⟩ := exists_next_edit c b
  rw [h]

theorem config_edit (b : Buffer) : (c.edit b).next.config = c.config := by
  obtain ⟨live, h⟩ := exists_next_edit c b
  rw [h]

theorem evaluatorLimit_edit (b : Buffer) : (c.edit b).next.evaluatorLimit = c.evaluatorLimit := by
  obtain ⟨live, h⟩ := exists_next_edit c b
  rw [h]

/-- No step changes the settings. -/
theorem config_step {c' : Calculator} {o : Outcome} (h : Step now c c' o) :
    c'.config = c.config := by
  cases h with
  | typed | begun => exact config_edit _
  | _ => rfl

/-- No step changes the limit that the evaluator works under. -/
theorem evaluatorLimit_step {c' : Calculator} {o : Outcome} (h : Step now c c' o) :
    c'.evaluatorLimit = c.evaluatorLimit := by
  cases h with
  | typed | begun => exact evaluatorLimit_edit _
  | _ => rfl

/-- Nothing but an expression typed and evaluated is recorded, and only once. -/
theorem history_step {c' : Calculator} {o : Outcome} (h : Step now c c' o) :
    c'.history = c.history ∨ ∃ x, c.mode = .entering ∧ c.value = .ok x ∧ o = .evaluated x ∧
      c'.history = c.history.record (c.entry now x) := by
  cases h with
  | typed | begun => exact .inl (history_edit _)
  | recorded hmode hx => exact .inr ⟨_, hmode, hx, rfl, rfl⟩
  | _ => exact .inl rfl

/-- What every step keeps, every action keeps. -/
theorem act_of_step {P : Calculator → Prop} (hc : P c)
    (step : ∀ {now c c' o}, P c → Step now c c' o → P c') (times : Moments) (a : Action) :
    P (c.act times a) := by
  refine act_induction times a hc (fun c now key hc => step hc (step_press c now key))
    (fun c line hc => step hc (step_selectLine c times.first line)) fun c hc => ?_
  have hclear : Step times.first c c.clear .updated := .cleared
  exact step hc hclear

/-! ## Calculators in use -/

/-- A calculator as it comes: with the default settings, or built from others. -/
inductive Fresh : Calculator → Prop
  | new : Fresh new
  | built {config : Config} {c : Calculator} (h : build config = .ok c) : Fresh c

/-- A calculator that keys, symbols, lines and clearing lead to from a fresh one. -/
def InUse (c : Calculator) : Prop := ∃ first, Fresh first ∧ Reachable first c

theorem InUse.act (h : InUse c) (times : Moments) (a : Action) : InUse (c.act times a) := by
  obtain ⟨first, hfirst, hreach⟩ := h
  exact ⟨first, hfirst, hreach.act times a⟩

theorem InUse.run (h : InUse c) (r : List (Moments × Action)) : InUse (c.run r) := by
  induction r generalizing c with
  | nil => exact h
  | cons step rest ih =>
    obtain ⟨times, a⟩ := step
    exact ih (h.act times a)

/-- A calculator is built with the settings asked for, and only if they are in range. -/
theorem build_eq_ok {config : Config} :
    build config = .ok c ↔ config.errors = [] ∧ c = ofConfig config := by
  unfold build
  cases config.errors with
  | nil => exact ⟨fun h => ⟨rfl, (Except.ok.inj h).symm⟩, fun h => congrArg Except.ok h.2.symm⟩
  | cons e es => exact ⟨fun h => (nomatch h), fun h => (nomatch h.1)⟩

theorem build_default : build {} = .ok new := build_eq_ok.2 ⟨by decide +kernel, rfl⟩

theorem inUse_ofConfig {config : Config} (h : config.errors = []) : InUse (ofConfig config) :=
  ⟨ofConfig config, .built (build_eq_ok.2 ⟨h, rfl⟩), .first⟩

theorem inUse_new : InUse new := ⟨new, .new, .first⟩

theorem Fresh.eq_ofConfig (h : Fresh c) : c.config.errors = [] ∧ c = ofConfig c.config := by
  cases h with
  | new => exact build_eq_ok.1 build_default
  | built h =>
    obtain ⟨herrors, rfl⟩ := build_eq_ok.1 h
    exact ⟨herrors, rfl⟩

/-- What holds of every fresh calculator and is kept by every step holds of every
calculator in use. -/
theorem InUse.induction {P : Calculator → Prop} (h : InUse c)
    (fresh : ∀ config, config.errors = [] → P (ofConfig config))
    (step : ∀ {now c c' o}, P c → Step now c c' o → P c') : P c := by
  obtain ⟨first, hfirst, hreach⟩ := h
  induction hreach with
  | first =>
    obtain ⟨herrors, hconfig⟩ := hfirst.eq_ofConfig
    exact hconfig ▸ fresh first.config herrors
  | act _ times a ih => exact act_of_step ih step times a

/-- The settings of a calculator in use are in range. -/
theorem errors_of_inUse (h : InUse c) : c.config.errors = [] := by
  refine h.induction (P := fun d => d.config.errors = []) (fun _ herrors => herrors) ?_
  intro now d d' o herrors hstep
  rw [config_step hstep]
  exact herrors

/-- The evaluator of a calculator in use works under the limit of the settings, although that limit
is kept in a place of its own. -/
theorem evaluatorLimit_of_inUse (h : InUse c) : c.evaluatorLimit = c.config.overflowLimit := by
  refine h.induction (P := fun d => d.evaluatorLimit = d.config.overflowLimit) (fun _ _ => rfl) ?_
  intro now d d' o hlimit hstep
  rw [evaluatorLimit_step hstep, config_step hstep]
  exact hlimit

end Calculator
end PocketCalc
