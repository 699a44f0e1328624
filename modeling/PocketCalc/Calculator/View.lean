import PocketCalc.Calculator.Basic

/-!
# The view

What there is to draw of a calculator.
-/

namespace PocketCalc

/-- A picture of the calculator, ready to be drawn. -/
structure View where
  expressionText : String
  /-- The live value, the result or the message of an error. -/
  displayText : String
  isError : Bool
  mode : Mode
  historyOpen : Bool
  historyEntries : List String
deriving DecidableEq

namespace Calculator

/-- The text of the display. -/
def displayText (c : Calculator) : String :=
  match c.mode with
  | .error => (c.error.map EvalError.message).getD "Error"
  | .resultShown => (c.lastResult.map Number.format).getD c.buffer.render
  | .entering => (c.liveValue.map Number.format).getD c.buffer.render

def view (c : Calculator) : View where
  expressionText := c.buffer.render
  displayText := c.displayText
  isError := c.mode.isError
  mode := c.mode
  historyOpen := c.historyOpen
  historyEntries := c.history.lines

end Calculator
end PocketCalc
