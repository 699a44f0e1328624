import PocketCalc.Proofs.Session.Lines
import PocketCalc.Proofs.Session.Recording

/-!
# Error mode

Only a failed evaluation leads into error mode.  There most inputs are refused, and those that are
not lead out of it, but for the two keys of the overlay (`followsErrorRules`).  A run is a
sequence of turns, one for each key, line or clearing, so a calculator shows an error exactly if a
turn has failed and none after it led out again (`error_run_iff`).
-/

namespace PocketCalc

/-- A single thing done with a calculator. -/
inductive Input where
  | key (key : Key)
  | line (text : String)
  | clear

/-- What an action consists of, in order.  A symbol that stands for no key is nothing. -/
def Action.inputs : Action → List Input
  | selectLine text => [.line text]
  | clear => [.clear]
  | a => a.keys.map .key

/-- An input of a run, with the calculator that it meets and the response to it. -/
structure Turn where
  before : Calculator
  input : Input
  response : Response

namespace Calculator

/-! ## Runs as turns -/

def respond (c : Calculator) (now : Timestamp) : Input → Response
  | .key key => c.press now key
  | .line text => c.selectLine text
  | .clear => ⟨c.clear, .updated, []⟩

/-- The turns of some inputs, one after the other. -/
def play (c : Calculator) (times : Moments) : List Input → List Turn
  | [] => []
  | x :: xs =>
    let r := c.respond times.first x
    ⟨c, x, r⟩ :: r.next.play times.later xs

/-- All turns of a run. -/
def turns (c : Calculator) : List (Moments × Action) → List Turn
  | [] => []
  | (times, a) :: rest => c.play times a.inputs ++ (c.act times a).turns rest

/-- Turns that begin with the first calculator and end with the second one, each of them with the
calculator that the one before it has left. -/
inductive Linked : Calculator → List Turn → Calculator → Prop
  | nil {c : Calculator} : Linked c [] c
  | cons {c d : Calculator} {ts : List Turn} (now : Timestamp) (x : Input)
    (h : Linked (c.respond now x).next ts d) : Linked c (⟨c, x, c.respond now x⟩ :: ts) d

variable {c c' d e : Calculator} {now : Timestamp} {o : Outcome} {x : Input}

theorem Linked.append {ts us : List Turn} (h : Linked c ts d) (h' : Linked d us e) :
    Linked c (ts ++ us) e := by
  induction h with
  | nil => exact h'
  | cons now x _ ih => exact .cons now x (ih h')

theorem linked_pressAll (c : Calculator) (times : Moments) (keys : List Key) :
    Linked c (c.play times (keys.map .key)) (c.pressAll times keys).1 := by
  induction keys generalizing c times with
  | nil => exact .nil
  | cons key keys ih =>
    exact .cons times.first (.key key) (ih (c.press times.first key).next times.later)

theorem linked_act (c : Calculator) (times : Moments) (a : Action) :
    Linked c (c.play times a.inputs) (c.act times a) := by
  cases a with
  | press key => exact .cons times.first (.key key) .nil
  | pressSymbol symbol =>
    rw [act_pressSymbol]
    exact linked_pressAll c times _
  | pressAll keys => exact linked_pressAll c times keys
  | selectLine text => exact .cons times.first (.line text) .nil
  | clear => exact .cons times.first .clear .nil

theorem linked_run (c : Calculator) (r : List (Moments × Action)) :
    Linked c (c.turns r) (c.run r) := by
  induction r generalizing c with
  | nil => exact .nil
  | cons step rest ih =>
    obtain ⟨times, a⟩ := step
    exact (linked_act c times a).append (ih (c.act times a))

theorem step_respond (c : Calculator) (now : Timestamp) (x : Input) :
    Step now c (c.respond now x).next (c.respond now x).outcome := by
  cases x with
  | key key => exact step_press c now key
  | line text => exact step_selectLine c now text
  | clear => exact .cleared

/-! ## Ways into error mode and out of it -/

/-- What error mode does not react to. -/
inductive Refuses (c : Calculator) : Input → Prop
  | operator (op : Operator) : Refuses c (.key (.operator op))
  | paren : Refuses c (.key .paren)
  | percent : Refuses c (.key .percent)
  | equals : Refuses c (.key .equals)
  | digit {n : UInt8} (hn : ¬ n < 10) : Refuses c (.key (.digit n))
  | entry {index : UInt64} (he : c.history.length ≤ index.toNat) :
    Refuses c (.key (.selectHistory index))
  | line {text : String} (hx : HistoryEntry.parseResult text = none) : Refuses c (.line text)

/-- What leads out of error mode, with the mode and the buffer that it leads to. -/
inductive Recovers (c : Calculator) : Input → Mode → Buffer → Prop
  | digit {n : UInt8} (hn : n < 10) :
    Recovers c (.key (.digit n)) .entering (.seeded (Key.digit n).symbol)
  | point : Recovers c (.key .decimalPoint) .entering (.seeded "0.")
  | backspace : Recovers c (.key .backspace) .entering .empty
  | clearKey : Recovers c (.key .clear) .entering .empty
  | clear : Recovers c .clear .entering .empty
  | entry {index : UInt64} {e : HistoryEntry} (he : c.history.get? index = some e) :
    Recovers c (.key (.selectHistory index)) .resultShown (.seeded (Number.format e.result))
  | line {text : String} {x : Float} (hx : HistoryEntry.parseResult text = some x) :
    Recovers c (.line text) .resultShown (.seeded (Number.format x))

end Calculator

/-- What only opens the history or closes it. -/
inductive Input.Overlays : Input → Bool → Prop
  | opens : Overlays (.key .openHistory) true
  | closes : Overlays (.key .closeHistory) false

namespace Turn

def Fails (t : Turn) : Prop := ∃ e, t.response.outcome = .failed e

def Recovers (t : Turn) : Prop := ∃ mode b, t.before.Recovers t.input mode b

/-- The rules of error mode. -/
structure FollowsErrorRules (t : Turn) : Prop where
  /-- It is entered by the turns that fail. -/
  enters_iff : t.before.mode ≠ .error → (t.response.next.mode = .error ↔ t.Fails)
  /-- What fails is the evaluation of an expression or of the result that is shown. -/
  fails : t.Fails → t.input = .key .equals ∧
    (t.before.mode = .entering ∧ ¬ t.before.buffer.isEmpty ∨ t.before.mode = .resultShown)
  refuses : t.before.mode = .error → t.before.Refuses t.input →
    t.response.outcome = .ignored ∧ t.response.next = t.before
  overlays : ∀ isOpen, t.before.mode = .error → t.input.Overlays isOpen →
    t.response.outcome = .updated ∧ t.response.next = { t.before with historyOpen := isOpen }
  leaves_iff : t.before.mode = .error → (t.response.next.mode ≠ .error ↔ t.Recovers)
  recovers : ∀ mode b, t.before.mode = .error → t.before.Recovers t.input mode b →
    t.response.outcome = .updated ∧ t.response.next.mode = mode ∧ t.response.next.buffer = b
  history_eq : t.before.mode = .error → t.response.next.history = t.before.history

end Turn

namespace Calculator

variable {c c' d : Calculator} {now : Timestamp} {o : Outcome} {x : Input}

theorem mode_edit (b : Buffer) : (c.edit b).next.mode = c.mode := by
  obtain ⟨live, h⟩ := exists_next_edit c b
  rw [h]

theorem mode_step_eq_error_iff (hmode : c.mode ≠ .error) (h : Step now c c' o) :
    c'.mode = .error ↔ ∃ e, o = .failed e := by
  -- All steps but two lead to another mode and do not fail.
  have hother : ∀ {m : Mode} {o : Outcome}, m ≠ .error → (∀ e, o ≠ .failed e) →
      (m = .error ↔ ∃ e, o = .failed e) := fun hm ho =>
    iff_of_false hm fun ⟨e, he⟩ => ho e he
  cases h with
  | refused | overlaid => exact hother hmode nofun
  | typed => exact hother (by rwa [mode_edit]) nofun
  | begun => exact hother (by rw [mode_edit]; exact nofun) nofun
  | continued | cleared | recorded | shownAgain | selected | read => exact hother nofun nofun
  | restarted herror => exact absurd herror hmode
  | failed => exact iff_of_true rfl ⟨_, rfl⟩

theorem input_eq_equals_of_failed {err : EvalError}
    (h : (c.respond now x).outcome = .failed err) : x = .key .equals := by
  cases x with
  | key key =>
    by_cases hkey : key = .equals
    · rw [hkey]
    · have hother : (c.press now key).outcome = .updated ∨ (c.press now key).outcome = .ignored :=
        outcome_press_of_ne hkey
      rcases hother with hother | hother
      · exact nomatch hother.symm.trans h
      · exact nomatch hother.symm.trans h
  | line text =>
    change (c.selectLine text).outcome = _ at h
    unfold selectLine at h
    split at h
    · cases h
    · cases h
  | clear => cases h

theorem before_of_failed {err : EvalError} (h : Step now c c' (.failed err)) :
    c.mode = .entering ∧ ¬ c.buffer.isEmpty ∨ c.mode = .resultShown := by
  cases h with
  | failed hmode hb _ =>
    cases hc : c.mode with
    | entering => exact .inl ⟨rfl, hb hc⟩
    | resultShown => exact .inr rfl
    | error => exact absurd hc hmode

/-! ## In error mode -/

theorem appendDigit_empty {n : UInt8} (hn : n < 10) :
    Buffer.empty.appendDigit (Nat.digitChar n.toNat) = .seeded (Key.digit n).symbol := by
  obtain ⟨m, rfl⟩ := exists_eq_ofNat_of_lt_ten hn
  clear hn
  revert m
  decide

section
variable (hmode : c.mode = .error)
include hmode

theorem respond_refuses (h : c.Refuses x) :
    (c.respond now x).outcome = .ignored ∧ (c.respond now x).next = c := by
  cases h with
  | operator | paren | percent | equals =>
    simp only [respond, outcome_press, next_press, handle, pressOperator, pressParen, pressPercent,
      pressEquals, hmode]
    exact ⟨rfl, rfl⟩
  | digit hn =>
    simp only [respond, outcome_press, next_press, handle, Key.digitChar?, if_neg hn]
    exact ⟨rfl, rfl⟩
  | @entry index he =>
    have hnone : c.history.get? index = none := List.getElem?_eq_none he
    simp only [respond, outcome_press, next_press, handle, selectEntry, hnone]
    exact ⟨rfl, rfl⟩
  | line hx =>
    simp only [respond, selectLine, hx]
    exact ⟨rfl, rfl⟩

theorem respond_begins (f : Buffer → Buffer) :
    (c.entering.edit (f c.entering.buffer)).outcome = .updated ∧
      (c.entering.edit (f c.entering.buffer)).next.mode = .entering ∧
      (c.entering.edit (f c.entering.buffer)).next.buffer = f .empty := by
  have hne : c.mode ≠ .entering := by
    rw [hmode]
    decide
  rw [entering_of_ne hne, outcome_edit, mode_edit, buffer_edit]
  exact ⟨rfl, rfl, rfl⟩

theorem respond_recovers {mode : Mode} {b : Buffer} (h : c.Recovers x mode b) :
    (c.respond now x).outcome = .updated ∧ (c.respond now x).next.mode = mode ∧
      (c.respond now x).next.buffer = b := by
  cases h with
  | @digit n hn =>
    have hbegun := respond_begins hmode (·.appendDigit (Nat.digitChar n.toNat))
    rw [appendDigit_empty hn] at hbegun
    simp only [respond, outcome_press, next_press, handle_digit c now hn]
    exact hbegun
  | point => exact respond_begins hmode Buffer.appendPoint
  | backspace =>
    have hrestart : c.pressBackspace = ⟨c.restart, .updated, []⟩ := by
      simp only [pressBackspace, hmode]
    rw [respond, outcome_press, next_press, handle, hrestart]
    exact ⟨rfl, rfl, rfl⟩
  | clearKey | clear => exact ⟨rfl, rfl, rfl⟩
  | entry he =>
    rw [respond, outcome_press, next_press, handle, selectEntry_of_get? he]
    exact ⟨rfl, rfl, rfl⟩
  | line hx =>
    rw [respond, selectLine_of_parseResult c hx]
    exact ⟨rfl, rfl, rfl⟩

omit hmode in
theorem respond_overlays {isOpen : Bool} (h : x.Overlays isOpen) :
    (c.respond now x).outcome = .updated ∧
      (c.respond now x).next = { c with historyOpen := isOpen } := by
  cases h with
  | opens | closes => exact ⟨rfl, rfl⟩

omit hmode in
/-- There is nothing else that can be put in. -/
theorem refuses_or_overlays_or_recovers (c : Calculator) (x : Input) :
    c.Refuses x ∨ (∃ isOpen, x.Overlays isOpen) ∨ ∃ mode b, c.Recovers x mode b := by
  cases x with
  | key key =>
    cases key with
    | digit n =>
      by_cases hn : n < 10
      · exact .inr (.inr ⟨_, _, .digit hn⟩)
      · exact .inl (.digit hn)
    | decimalPoint => exact .inr (.inr ⟨_, _, .point⟩)
    | operator op => exact .inl (.operator op)
    | paren => exact .inl .paren
    | percent => exact .inl .percent
    | backspace => exact .inr (.inr ⟨_, _, .backspace⟩)
    | clear => exact .inr (.inr ⟨_, _, .clearKey⟩)
    | equals => exact .inl .equals
    | openHistory => exact .inr (.inl ⟨_, .opens⟩)
    | closeHistory => exact .inr (.inl ⟨_, .closes⟩)
    | selectHistory index =>
      cases he : c.history.get? index with
      | some e => exact .inr (.inr ⟨_, _, .entry he⟩)
      | none => exact .inl (.entry (List.getElem?_eq_none_iff.1 he))
  | line text =>
    cases hx : HistoryEntry.parseResult text with
    | some x => exact .inr (.inr ⟨_, _, .line hx⟩)
    | none => exact .inl (.line hx)
  | clear => exact .inr (.inr ⟨_, _, .clear⟩)

theorem leaves_error_iff :
    (c.respond now x).next.mode ≠ .error ↔ ∃ mode b, c.Recovers x mode b := by
  constructor
  · intro hleft
    rcases refuses_or_overlays_or_recovers c x with h | ⟨isOpen, h⟩ | h
    · rw [(respond_refuses hmode h).2] at hleft
      exact absurd hmode hleft
    · rw [(respond_overlays h).2] at hleft
      exact absurd hmode hleft
    · exact h
  · rintro ⟨mode, b, h⟩
    rw [(respond_recovers hmode h).2.1]
    cases h with
    | _ => exact nofun

theorem history_step_of_error (h : Step now c c' o) : c'.history = c.history := by
  rcases history_step h with hsame | ⟨_, hentering, -⟩
  · exact hsame
  · exact nomatch hmode.symm.trans hentering

end

theorem followsErrorRules (c : Calculator) (now : Timestamp) (x : Input) :
    (⟨c, x, c.respond now x⟩ : Turn).FollowsErrorRules where
  enters_iff hmode := mode_step_eq_error_iff hmode (step_respond c now x)
  fails := by
    rintro ⟨e, he⟩
    have hstep := step_respond c now x
    rw [he] at hstep
    exact ⟨input_eq_equals_of_failed he, before_of_failed hstep⟩
  refuses hmode h := respond_refuses hmode h
  overlays _ _ h := respond_overlays h
  leaves_iff hmode := leaves_error_iff hmode
  recovers _ _ hmode h := respond_recovers hmode h
  history_eq hmode := history_step_of_error hmode (step_respond c now x)

/-! ## Runs -/

theorem Linked.followsErrorRules {ts : List Turn} (h : Linked c ts d) :
    ∀ t ∈ ts, t.FollowsErrorRules := by
  induction h with
  | nil => exact List.forall_mem_nil _
  | cons now x _ ih => exact List.forall_mem_cons.2 ⟨Calculator.followsErrorRules _ now x, ih⟩

end Calculator

namespace Turn

/-- Some turn fails, and none after it leads out of error mode. -/
def FailsForGood (ts : List Turn) : Prop :=
  ∃ front t back, ts = front ++ t :: back ∧ t.Fails ∧ ∀ u ∈ back, ¬ u.Recovers

theorem not_failsForGood_nil : ¬ FailsForGood [] := by
  rintro ⟨front, t, back, h, -⟩
  exact List.append_ne_nil_of_right_ne_nil front (List.cons_ne_nil t back) h.symm

theorem failsForGood_cons {t : Turn} {ts : List Turn} :
    FailsForGood (t :: ts) ↔ (t.Fails ∧ ∀ u ∈ ts, ¬ u.Recovers) ∨ FailsForGood ts := by
  constructor
  · rintro ⟨front, u, back, h, hu, hback⟩
    cases front with
    | nil =>
      obtain ⟨rfl, rfl⟩ := List.cons.inj h
      exact .inl ⟨hu, hback⟩
    | cons _ front => exact .inr ⟨front, u, back, (List.cons.inj h).2, hu, hback⟩
  · rintro (⟨ht, hts⟩ | ⟨front, u, back, rfl, hu, hback⟩)
    · exact ⟨[], t, ts, rfl, ht, hts⟩
    · exact ⟨t :: front, u, back, rfl, hu, hback⟩

/-- A turn ends in error mode if it fails, or if it begins there and does not lead out. -/
theorem FollowsErrorRules.error_iff {t : Turn} (h : t.FollowsErrorRules) :
    t.response.next.mode = .error ↔ t.Fails ∨ t.before.mode = .error ∧ ¬ t.Recovers := by
  by_cases hmode : t.before.mode = .error
  · have hfails : ¬ t.Fails := fun hf => by
      rcases (h.fails hf).2 with ⟨hentering, -⟩ | hshown
      · exact nomatch hmode.symm.trans hentering
      · exact nomatch hmode.symm.trans hshown
    rw [or_iff_right hfails, and_iff_right hmode, ← h.leaves_iff hmode, Classical.not_not]
  · rw [h.enters_iff hmode, or_iff_left fun hboth => hmode hboth.1]

end Turn

namespace Calculator

variable {c d : Calculator}

theorem Linked.error_iff {ts : List Turn} (h : Linked c ts d) :
    d.mode = .error ↔ Turn.FailsForGood ts ∨ c.mode = .error ∧ ∀ u ∈ ts, ¬ u.Recovers := by
  induction h with
  | nil =>
    rw [or_iff_right Turn.not_failsForGood_nil, and_iff_left (List.forall_mem_nil _)]
  | @cons c d ts now x _ ih =>
    have hturn := (Calculator.followsErrorRules c now x).error_iff
    rw [ih, hturn, Turn.failsForGood_cons, List.forall_mem_cons, or_and_right, and_assoc,
      or_left_comm, or_assoc]

/-- Every turn of a run follows the rules of error mode, and a run ends there exactly if a turn has
failed since, or if it began there. -/
theorem error_run_iff (c : Calculator) (r : List (Moments × Action)) :
    Linked c (c.turns r) (c.run r) ∧ (∀ t ∈ c.turns r, t.FollowsErrorRules) ∧
      ((c.run r).mode = .error ↔ Turn.FailsForGood (c.turns r) ∨
        c.mode = .error ∧ ∀ u ∈ c.turns r, ¬ u.Recovers) :=
  have hlinked := linked_run c r
  ⟨hlinked, hlinked.followsErrorRules, hlinked.error_iff⟩

example :
    let now : Timestamp := ⟨2024, 1, 2, 3, 4, 5, by decide⟩
    let failed := new.run [(now, .pressAll [.digit 1, .operator .div, .digit 0, .equals]),
      (now, .pressSymbol "%")]
    failed.mode = .error ∧ (failed.press now (.digit 5)).next.buffer = .seeded "5" := by
  decide +kernel

end Calculator
end PocketCalc
