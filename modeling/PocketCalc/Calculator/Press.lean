import PocketCalc.Calculator.Basic
import PocketCalc.Calculator.Event

/-!
# Pressing keys

Every key is one transition of the calculator.  A failed evaluation never leaves the
calculator unusable: while an expression is typed it only leaves the live value as it
was, and on the equals key it leads to the error mode.  The moment of every press is given
from outside and goes into the history entry that the press may record.
-/

namespace PocketCalc

/-- What a key press did. -/
inductive Outcome where
  /-- The state was brought up to date. -/
  | updated
  /-- The key does not apply, and nothing changed. -/
  | ignored
  /-- The expression was evaluated to this rounded result. -/
  | evaluated (result : Float)
  /-- The expression has no value. -/
  | failed (error : EvalError)
deriving DecidableEq

/-- A calculator after a step, what the step did, and what it reported. -/
structure Response where
  next : Calculator
  outcome : Outcome
  events : List Event := []
deriving DecidableEq

namespace Calculator

/-- Refuses a key. -/
def ignore (c : Calculator) (events : List Event := []) : Response := ⟨c, .ignored, events⟩

/-- Begins a new expression.  The history and the last result are kept. -/
def restart (c : Calculator) : Calculator :=
  { c with buffer := .empty, liveValue := none, error := none, mode := .entering }

/-- Begins a new expression and forgets the last result.  The history is kept. -/
def clear (c : Calculator) : Calculator := { c.restart with lastResult := none }

/-- Begins a new expression unless one is being typed. -/
def entering (c : Calculator) : Calculator := if c.mode = .entering then c else c.restart

/-- Puts a buffer in place and brings the live value up to date.  An expression without a
value leaves the live value as it was; an empty one has none. -/
def edit (c : Calculator) (buffer : Buffer) : Response :=
  let c := { c with buffer }
  if buffer.isEmpty then ⟨{ c with liveValue := none }, .updated, []⟩
  else
    match c.value with
    | .ok x => ⟨{ c with liveValue := some x }, .updated, [.livePreview x]⟩
    | .error e => ⟨c, .updated, [.livePreviewUnavailable e]⟩

/-- Shows a result as the number that the next operator continues from. -/
def load (c : Calculator) (result : Float) : Calculator :=
  { c with
    buffer := .seeded (Number.format result)
    mode := .resultShown
    lastResult := some result
    liveValue := some result
    error := none
    historyOpen := false }

/-- Shows the error of an evaluation. -/
def fail (c : Calculator) (e : EvalError) : Response :=
  ⟨{ c with mode := .error, error := some e, liveValue := none }, .failed e,
    [.evaluationFailed e c.buffer.render]⟩

/-- Shows the result of an evaluation. -/
def succeed (c : Calculator) (result : Float) : Calculator :=
  { c with
    mode := .resultShown
    lastResult := some result
    liveValue := some result
    error := none }

/-- The history entry of the expression in the buffer with a result. -/
def entry (c : Calculator) (now : Timestamp) (result : Float) : HistoryEntry :=
  ⟨c.buffer.render, result, now⟩

/-! ## The keys -/

def pressDigit (c : Calculator) (digit : Char) : Response :=
  let c := c.entering
  c.edit (c.buffer.appendDigit digit)

def pressPoint (c : Calculator) : Response :=
  let c := c.entering
  c.edit c.buffer.appendPoint

/-- An operator typed first follows a zero; one typed after a result continues from it.  The
zero and the result are put in place before the operator is tried. -/
def pressOperator (c : Calculator) (op : Operator) : Response :=
  match c.mode with
  | .entering =>
    let c := if c.buffer.isEmpty then { c with buffer := c.buffer.appendDigit '0' } else c
    match c.buffer.append (.operator op) with
    | .ok buffer => c.edit buffer
    | .error reason => c.ignore [.operatorRejected reason op]
  | .resultShown =>
    match c.lastResult with
    | none => c.ignore
    | some result =>
      let c := { c.restart with buffer := .seeded (Number.format result) }
      match c.buffer.append (.operator op) with
      | .ok buffer => ⟨{ c with buffer, liveValue := some result }, .updated, []⟩
      | .error _ => c.ignore
  | .error => c.ignore

def pressParen (c : Calculator) : Response :=
  match c.mode with
  | .error => c.ignore
  | _ =>
    let c := c.entering
    c.edit (c.buffer.appendParen c.config.parenMode)

def pressPercent (c : Calculator) : Response :=
  match c.mode with
  | .entering =>
    match c.buffer.append .percent with
    | .ok buffer => c.edit buffer
    | .error reason => c.ignore [.percentRejected reason]
  | _ => c.ignore

def pressBackspace (c : Calculator) : Response :=
  match c.mode with
  | .entering => c.edit c.buffer.backspace
  | .resultShown => c.ignore
  | .error => ⟨c.restart, .updated, []⟩

/-- A result shown is evaluated once more, but recorded only the first time. -/
def pressEquals (c : Calculator) (now : Timestamp) : Response :=
  match c.mode with
  | .entering =>
    if c.buffer.isEmpty then c.ignore
    else
      match c.value with
      | .ok result =>
        let entry := c.entry now result
        ⟨{ c.succeed result with history := c.history.record entry }, .evaluated result,
          [.computationRecorded entry.line]⟩
      | .error e => c.fail e
  | .resultShown =>
    match c.value with
    | .ok result => ⟨c.succeed result, .evaluated result, []⟩
    | .error e => c.fail e
  | .error => c.ignore

def selectEntry (c : Calculator) (index : UInt64) : Response :=
  match c.history.get? index with
  | some entry => ⟨c.load entry.result, .updated, []⟩
  | none => c.ignore [.noSuchEntry index c.history.length]

/-- The transition of a key, without the event that closes it. -/
def handle (c : Calculator) (now : Timestamp) (key : Key) : Response :=
  match key with
  | .digit _ =>
    match key.digitChar? with
    | some digit => c.pressDigit digit
    | none => c.ignore
  | .decimalPoint => c.pressPoint
  | .operator op => c.pressOperator op
  | .paren => c.pressParen
  | .percent => c.pressPercent
  | .backspace => c.pressBackspace
  | .clear => ⟨c.clear, .updated, []⟩
  | .equals => c.pressEquals now
  | .openHistory => ⟨{ c with historyOpen := true }, .updated, []⟩
  | .closeHistory => ⟨{ c with historyOpen := false }, .updated, []⟩
  | .selectHistory index => c.selectEntry index

/-- The event that closes a key press, if there is something to say. -/
def closingEvent (key : Key) (before : Mode) (r : Response) : List Event :=
  if r.outcome = .ignored then [.keyIgnored key before]
  else if before ≠ r.next.mode then [.modeChanged key before r.next.mode]
  else []

/-- Presses a key. -/
def press (c : Calculator) (now : Timestamp) (key : Key) : Response :=
  let r := c.handle now key
  { r with events := r.events ++ closingEvent key c.mode r }

theorem next_press (c : Calculator) (now : Timestamp) (key : Key) :
    (c.press now key).next = (c.handle now key).next := rfl

theorem outcome_press (c : Calculator) (now : Timestamp) (key : Key) :
    (c.press now key).outcome = (c.handle now key).outcome := rfl

theorem events_press (c : Calculator) (now : Timestamp) (key : Key) :
    (c.press now key).events =
      (c.handle now key).events ++ closingEvent key c.mode (c.handle now key) := rfl

/-! ## Other ways in -/

/-- Presses the key that a symbol stands for. -/
def pressSymbol (c : Calculator) (now : Timestamp) (symbol : String) : Except KeyError Response :=
  (Key.ofSymbol symbol).map (c.press now)

/-- The calculator after some keys, each pressed at its own moment, the outcome of the last one
and the events of all. -/
def pressAll (c : Calculator) (times : Moments) :
    List Key → Calculator × Option Outcome × List Event
  | [] => (c, none, [])
  | key :: keys =>
    let r := c.press times.first key
    let (next, last, events) := r.next.pressAll times.later keys
    (next, last.or (some r.outcome), r.events ++ events)

/-- Picks the result of a line of text as if it were a line of the history. -/
def selectLine (c : Calculator) (line : String) : Response :=
  match HistoryEntry.parseResult line with
  | some result => ⟨c.load result, .updated, []⟩
  | none => c.ignore [.lineWithoutResult line]

end Calculator
end PocketCalc
