/-!
# Modes

Where a calculator is in the cycle of entering an expression and seeing its result.
-/

namespace PocketCalc

inductive Mode where
  /-- The expression is being typed. -/
  | entering
  /-- The expression has a result, which is shown. -/
  | resultShown
  /-- The expression has no value, and the reason is shown. -/
  | error
deriving DecidableEq

namespace Mode

def name : Mode → String
  | entering => "Entering"
  | resultShown => "ResultShown"
  | error => "Error"

def isError : Mode → Bool
  | error => true
  | _ => false

end Mode
end PocketCalc
