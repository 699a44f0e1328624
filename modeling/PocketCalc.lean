import PocketCalc.Number.Double
import PocketCalc.Number.Decimal
import PocketCalc.Number.Shortest
import PocketCalc.Number.Literal
import PocketCalc.Number.Format
import PocketCalc.Number.Rounding
import PocketCalc.Text.Blank
import PocketCalc.Text.Unprintable
import PocketCalc.Text.Quoted
import PocketCalc.Token
import PocketCalc.Evaluator
import PocketCalc.Expression
import PocketCalc.Buffer
import PocketCalc.Timestamp
import PocketCalc.History
import PocketCalc.Key
import PocketCalc.Mode
import PocketCalc.Config
import PocketCalc.Calculator.Basic
import PocketCalc.Calculator.Event
import PocketCalc.Calculator.Press
import PocketCalc.Calculator.View
import PocketCalc.Calculator.Run
import PocketCalc.Json.Basic
import PocketCalc.Json.Form
import PocketCalc.Json.Session
import PocketCalc.Transcript
import PocketCalc.Main
import PocketCalc.Proofs.Evaluation.Grammar
import PocketCalc.Proofs.Evaluation.Reading
import PocketCalc.Proofs.Evaluation.Meaning
import PocketCalc.Proofs.Evaluation.Fault
import PocketCalc.Proofs.Number.Bits
import PocketCalc.Proofs.Number.Readback
import PocketCalc.Proofs.Number.Rounded
import PocketCalc.Proofs.Number.Order
import PocketCalc.Proofs.Number.Nearest
import PocketCalc.Proofs.Number.Drift
import PocketCalc.Proofs.Evaluation.Limits
import PocketCalc.Proofs.Evaluation.Descent
import PocketCalc.Proofs.Session.Step
import PocketCalc.Proofs.Session.Coherence
import PocketCalc.Proofs.Session.Reload
import PocketCalc.Proofs.Session.Recording
import PocketCalc.Proofs.Number.Numeral
import PocketCalc.Proofs.Buffer.Entry
import PocketCalc.Proofs.Session.Tidy
import PocketCalc.Proofs.Session.Lines
import PocketCalc.Proofs.Buffer.Keying
import PocketCalc.Proofs.Buffer.Sentence
import PocketCalc.Proofs.Session.Keypad
import PocketCalc.Proofs.Session.Rekeying
import PocketCalc.Proofs.Evaluation.Unfinished
import PocketCalc.Proofs.Session.Completion
import PocketCalc.Proofs.Session.Atomic
import PocketCalc.Proofs.Session.Preview
import PocketCalc.Proofs.Session.Afresh
import PocketCalc.Proofs.Buffer.Rules
import PocketCalc.Proofs.Session.Literals
import PocketCalc.Proofs.Session.Groups
import PocketCalc.Proofs.Buffer.Scanning
import PocketCalc.Proofs.Session.Finite
import PocketCalc.Proofs.Session.Display
import PocketCalc.Proofs.Session.Errors
import PocketCalc.Proofs.Session.Settings
import PocketCalc.Proofs.Session.Repeated
import PocketCalc.Proofs.Buffer.FirstNumber
import PocketCalc.Proofs.Session.Continuing
import PocketCalc.Proofs.Session.Deleting
import PocketCalc.Proofs.Key.Symbols
import PocketCalc.Proofs.Session.Log
import PocketCalc.Proofs.Json.Moments
import PocketCalc.Proofs.Json.Forms
import PocketCalc.Proofs.Json.Scalars
import PocketCalc.Proofs.Json.Reader
import PocketCalc.Proofs.Json.RoundTrip
