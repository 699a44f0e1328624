import PocketCalc.Buffer
import PocketCalc.Config
import PocketCalc.History
import PocketCalc.Mode

/-!
# The calculator

All that a calculator remembers between two keys, and how one is built from settings.
-/

namespace PocketCalc

/-- The state of a session. -/
structure State where
  buffer : Buffer := .empty
  /-- The last value that the expression had while it was being typed. -/
  liveValue : Option Float := none
  mode : Mode := .entering
  error : Option EvalError := none
  lastResult : Option Float := none
  history : History := {}
  /-- Whether the history lies over the display. -/
  historyOpen : Bool := false
deriving DecidableEq

/-- A calculator: the state of its session, its settings and the limit that its evaluator works
under, which is a store of its own beside the settings. -/
structure Calculator extends State where
  config : Config
  evaluatorLimit : Float
deriving DecidableEq

namespace Calculator

/-- A calculator that has not been used yet.  The history and the evaluator get their limits from
the settings here. -/
def ofConfig (config : Config) : Calculator :=
  { history := { capacity := config.historyLimit }
    config
    evaluatorLimit := config.overflowLimit }

/-- The calculator with the default settings. -/
def new : Calculator := ofConfig {}

/-- Builds a calculator if its settings are all in range. -/
def build (config : Config) : Except BuildError Calculator :=
  match config.errors with
  | [] => .ok (ofConfig config)
  | errors => .error (.invalidConfig errors)

/-- The rounded value of the expression typed so far. -/
def value (c : Calculator) : Except EvalError Float :=
  (Evaluator.evaluate c.evaluatorLimit c.buffer.tokens).map
    (Number.round · c.config.decimalPlaces.toNat)

end Calculator
end PocketCalc
