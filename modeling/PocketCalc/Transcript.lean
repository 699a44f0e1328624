import PocketCalc.Calculator.Press
import PocketCalc.Calculator.View
import PocketCalc.Json.Session
import PocketCalc.Text.Quoted

/-!
# Transcripts

A session at the keypad as lines of text: the display after every key, and at the end the
history and the view.  A symbol that stands for no key ends the session at once.
-/

namespace PocketCalc

/-- What a session prints, and the error that ended it early, if one did. -/
structure Transcript where
  lines : List String
  failure : Option KeyError

namespace Transcript

/-- The symbols of the session shown when none is given. -/
def sampleSymbols : List String :=
  ["7", "+", "3", "×", "2", "=", "C", "8", "÷", "0", "=", "⌫", "5", "0", "%", "="]

/-- A text filled up with blanks in front. -/
def alignRight (width : Nat) (s : String) : String :=
  String.ofList (List.replicate (width - s.length) ' ' ++ s.toList)

/-- A text filled up with blanks at the end. -/
def alignLeft (width : Nat) (s : String) : String :=
  String.ofList (s.toList ++ List.replicate (width - s.length) ' ')

/-- The remark on what a key did. -/
def remark : Outcome → String
  | .updated => ""
  | .ignored => "  (ignored)"
  | .evaluated result => "  => " ++ Number.plainText result
  | .failed error => "  !! " ++ error.message

/-- The line of a key press: the key, the expression, the display and the remark. -/
def row (key : Key) (r : Response) : String :=
  alignRight 3 key.symbol ++ " | " ++ alignLeft 20 r.next.buffer.render ++ " | " ++
    alignLeft 18 r.next.displayText ++ remark r.outcome

/-- The lines after the last key. -/
def closing (c : Calculator) : List String :=
  ["", "History:"] ++ c.history.lines.map ("  " ++ ·) ++
    (c.history.last?.map fun e => "Latest recorded at " ++ e.recordedAt.offsetText).toList ++
    ["", "Final view as JSON:", (JsonForm.encode c.view).text, "", "=== Example Complete ==="]

/-- The lines from a calculator on, one key after the other. -/
def run (times : Moments) (c : Calculator) : List String → Transcript
  | [] => ⟨closing c, none⟩
  | symbol :: symbols =>
    match Key.ofSymbol symbol with
    | .ok key =>
      let r := c.press times.first key
      let t := run times.later r.next symbols
      ⟨row key r :: t.lines, t.failure⟩
    | .error e => ⟨[], some e⟩

/-- The session with the given symbols on a new calculator. -/
def ofSymbols (times : Moments) (symbols : List String) : Transcript :=
  let t := run times .new (if symbols.isEmpty then sampleSymbols else symbols)
  { t with lines := "=== Keypad Session ===" :: "" :: t.lines }

/-- The line that reports the error of a session. -/
def failureLine : KeyError → String
  | .unknown symbol => "Error: Unknown(" ++ Quoted.quote symbol ++ ")"

end Transcript
end PocketCalc
