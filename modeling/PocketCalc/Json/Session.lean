import PocketCalc.Calculator.View
import PocketCalc.Json.Form
import PocketCalc.Key

/-!
# JSON forms of the calculator

The forms of everything that a session is made of.
-/

namespace PocketCalc
namespace JsonForm

/-! ## Constructors -/

def operatorName : Operator → String
  | .add => "Add"
  | .sub => "Sub"
  | .mul => "Mul"
  | .div => "Div"

instance : JsonForm Operator where
  encode op := .string (operatorName op)
  decode? j :=
    match j.variant? with
    | some ("Add", none) => some .add
    | some ("Sub", none) => some .sub
    | some ("Mul", none) => some .mul
    | some ("Div", none) => some .div
    | _ => none

instance : JsonForm Token where
  encode
    | .number text => .variant "Number" (encode text)
    | .operator op => .variant "Operator" (encode op)
    | .leftParen => .string "LeftParen"
    | .rightParen => .string "RightParen"
    | .percent => .string "Percent"
  decode? j :=
    match j.variant? with
    | some ("Number", some content) => (decode? content).map .number
    | some ("Operator", some content) => (decode? content).map .operator
    | some ("LeftParen", none) => some .leftParen
    | some ("RightParen", none) => some .rightParen
    | some ("Percent", none) => some .percent
    | _ => none

instance : JsonForm ParenMode where
  encode
    | .toggle => .string "Toggle"
    | .balanced => .string "Balanced"
  decode? j :=
    match j.variant? with
    | some ("Toggle", none) => some .toggle
    | some ("Balanced", none) => some .balanced
    | _ => none

instance : JsonForm Key where
  encode
    | .digit n => .variant "Digit" (encode n)
    | .decimalPoint => .string "DecimalPoint"
    | .operator op => .variant "Operator" (encode op)
    | .paren => .string "Paren"
    | .percent => .string "Percent"
    | .backspace => .string "Backspace"
    | .clear => .string "Clear"
    | .equals => .string "Equals"
    | .openHistory => .string "OpenHistory"
    | .closeHistory => .string "CloseHistory"
    | .selectHistory index => .variant "SelectHistory" (encode index)
  decode? j :=
    match j.variant? with
    | some ("Digit", some content) => (decode? content).map .digit
    | some ("DecimalPoint", none) => some .decimalPoint
    | some ("Operator", some content) => (decode? content).map .operator
    | some ("Paren", none) => some .paren
    | some ("Percent", none) => some .percent
    | some ("Backspace", none) => some .backspace
    | some ("Clear", none) => some .clear
    | some ("Equals", none) => some .equals
    | some ("OpenHistory", none) => some .openHistory
    | some ("CloseHistory", none) => some .closeHistory
    | some ("SelectHistory", some content) => (decode? content).map .selectHistory
    | _ => none

instance : JsonForm Mode where
  encode mode := .string mode.name
  decode? j :=
    match j.variant? with
    | some ("Entering", none) => some .entering
    | some ("ResultShown", none) => some .resultShown
    | some ("Error", none) => some .error
    | _ => none

def evalErrorName : EvalError → String
  | .divisionByZero => "DivisionByZero"
  | .malformedExpression => "MalformedExpression"
  | .overflow => "Overflow"

instance : JsonForm EvalError where
  encode e := .string (evalErrorName e)
  decode? j :=
    match j.variant? with
    | some ("DivisionByZero", none) => some .divisionByZero
    | some ("MalformedExpression", none) => some .malformedExpression
    | some ("Overflow", none) => some .overflow
    | _ => none

instance : JsonForm Timestamp where
  encode t := .string t.text
  decode?
    | .string s => Timestamp.ofChars? s.toList
    | _ => none

/-! ## Records -/

instance : JsonForm Buffer where
  encode b := .object [("tokens", encode b.tokens)]
  decode? j := do
    let [tokens] ← j.record? ["tokens"] | none
    return ⟨← decode? tokens⟩

instance : JsonForm HistoryEntry where
  encode e := .object [("expression", encode e.expression), ("result", encode e.result),
    ("recorded_at", encode e.recordedAt)]
  decode? j := do
    let [expression, result, recordedAt] ← j.record? ["expression", "result", "recorded_at"] | none
    return ⟨← decode? expression, ← decode? result, ← decode? recordedAt⟩

instance : JsonForm History where
  encode h := .object [("entries", encode h.entries), ("capacity", encode h.capacity)]
  decode? j := do
    let [entries, capacity] ← j.record? ["entries", "capacity"] | none
    return ⟨← decode? entries, ← decode? capacity⟩

instance : JsonForm View where
  encode v := .object [("expression_text", encode v.expressionText),
    ("display_text", encode v.displayText), ("is_error", encode v.isError),
    ("mode", encode v.mode), ("history_open", encode v.historyOpen),
    ("history_entries", encode v.historyEntries)]
  decode? j := do
    let [expressionText, displayText, isError, mode, historyOpen, historyEntries] ←
      j.record? ["expression_text", "display_text", "is_error", "mode", "history_open",
        "history_entries"] | none
    return ⟨← decode? expressionText, ← decode? displayText, ← decode? isError, ← decode? mode,
      ← decode? historyOpen, ← decode? historyEntries⟩

instance : JsonForm Config where
  encode c := .object [("decimal_places", encode c.decimalPlaces),
    ("history_limit", encode c.historyLimit), ("paren_mode", encode c.parenMode),
    ("overflow_limit", encode c.overflowLimit)]
  decode? j := do
    let [decimalPlaces, historyLimit, parenMode, overflowLimit] ←
      j.record? ["decimal_places", "history_limit", "paren_mode", "overflow_limit"] | none
    return ⟨← decode? decimalPlaces, ← decode? historyLimit, ← decode? parenMode,
      ← decode? overflowLimit⟩

instance : JsonForm State where
  encode s := .object [("buffer", encode s.buffer), ("live_value", encode s.liveValue),
    ("mode", encode s.mode), ("error", encode s.error), ("last_result", encode s.lastResult),
    ("history", encode s.history), ("history_open", encode s.historyOpen)]
  decode? j := do
    let [buffer, liveValue, mode, error, lastResult, history, historyOpen] ←
      j.record? ["buffer", "live_value", "mode", "error", "last_result", "history",
        "history_open"] | none
    return ⟨← decode? buffer, ← decode? liveValue, ← decode? mode, ← decode? error,
      ← decode? lastResult, ← decode? history, ← decode? historyOpen⟩

end JsonForm
end PocketCalc
