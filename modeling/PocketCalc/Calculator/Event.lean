import PocketCalc.Buffer
import PocketCalc.Evaluator
import PocketCalc.Key
import PocketCalc.Mode

/-!
# Events

What a calculator reports about its own work.  An event has a level, a message and named
fields.
-/

namespace PocketCalc

/-- How much detail an event belongs to. -/
inductive Level where
  | trace
  | debug
  | info

namespace Level

def name : Level → String
  | trace => "TRACE"
  | debug => "DEBUG"
  | info => "INFO"

end Level

/-- Something worth reporting. -/
inductive Event where
  | livePreview (value : Float)
  | livePreviewUnavailable (error : EvalError)
  | modeChanged (key : Key) (before after : Mode)
  | keyIgnored (key : Key) (mode : Mode)
  | operatorRejected (reason : BufferError) (op : Operator)
  | percentRejected (reason : BufferError)
  | evaluationFailed (error : EvalError) (expression : String)
  | computationRecorded (line : String)
  | noSuchEntry (index : UInt64) (length : Nat)
  | lineWithoutResult (line : String)
deriving DecidableEq

namespace Event

/-- The value of a field. -/
inductive Field where
  | text (s : String)
  | number (x : Float)

def level : Event → Level
  | livePreview _ | livePreviewUnavailable _ | modeChanged .. => .trace
  | computationRecorded _ => .info
  | _ => .debug

def message : Event → String
  | livePreview _ => "live preview"
  | livePreviewUnavailable _ => "live preview unavailable"
  | modeChanged .. => "mode changed"
  | keyIgnored .. => "key ignored"
  | operatorRejected .. => "operator rejected"
  | percentRejected _ => "percent rejected"
  | evaluationFailed .. => "evaluation failed"
  | computationRecorded _ => "computation recorded"
  | noSuchEntry .. => "no such history entry"
  | lineWithoutResult _ => "history line has no result"

def fields : Event → List (String × Field)
  | livePreview value => [("value", .number value)]
  | livePreviewUnavailable error => [("error", .text error.message)]
  | modeChanged key before after =>
    [("key", .text key.symbol), ("from", .text before.name), ("to", .text after.name)]
  | keyIgnored key mode => [("key", .text key.symbol), ("mode", .text mode.name)]
  | operatorRejected reason op =>
    [("reason", .text reason.message), ("operator", .text (String.singleton op.glyph))]
  | percentRejected reason => [("reason", .text reason.message)]
  | evaluationFailed error expression =>
    [("error", .text error.message), ("expression", .text expression)]
  | computationRecorded line => [("line", .text line)]
  | noSuchEntry index length =>
    [("index", .text index.toNat.repr), ("len", .text length.repr)]
  | lineWithoutResult line => [("line", .text line)]

end Event
end PocketCalc
