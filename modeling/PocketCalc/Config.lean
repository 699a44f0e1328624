import PocketCalc.Buffer
import PocketCalc.Evaluator
import PocketCalc.Number.Format
import PocketCalc.Number.Rounding

/-!
# Settings

What can be set about a calculator, and which settings it can be built with.
-/

namespace PocketCalc

/-- The settings of a calculator. -/
structure Config where
  /-- Decimal places kept in results. -/
  decimalPlaces : UInt32 := UInt32.ofNat Number.defaultPlaces
  /-- How many history entries are kept; all of them if not limited. -/
  historyLimit : Option UInt64 := none
  parenMode : ParenMode := .toggle
  /-- The greatest magnitude a value may have. -/
  overflowLimit : Float := Evaluator.noLimit
deriving DecidableEq

/-- What is wrong with a configuration. -/
inductive ConfigError where
  | decimalPlacesOutOfRange (found : UInt32)
  | zeroHistoryLimit
  | invalidOverflowLimit (found : Float)
deriving DecidableEq

namespace ConfigError

def message : ConfigError → String
  | decimalPlacesOutOfRange found =>
    "Decimal places (" ++ found.toNat.repr ++ ") exceed the supported maximum (" ++
      Number.maxPlaces.repr ++ ")"
  | zeroHistoryLimit => "History limit must keep at least one entry"
  | invalidOverflowLimit found =>
    "Overflow limit must be finite and positive, got " ++ Number.plainText found

end ConfigError

/-- Why a calculator was not built: everything that is wrong with its configuration. -/
inductive BuildError where
  | invalidConfig (errors : List ConfigError)
deriving DecidableEq

namespace BuildError

def message : BuildError → String
  | invalidConfig errors =>
    "Invalid calculator configuration: " ++ "; ".intercalate (errors.map ConfigError.message)

end BuildError

namespace Config

/-- Everything that is wrong with a configuration, in a fixed order. -/
def errors (c : Config) : List ConfigError :=
  (if Number.maxPlaces < c.decimalPlaces.toNat then
    [.decimalPlacesOutOfRange c.decimalPlaces] else []) ++
  (if c.historyLimit = some 0 then [.zeroHistoryLimit] else []) ++
  (if c.overflowLimit.isFinite ∧ 0 < c.overflowLimit then []
    else [.invalidOverflowLimit c.overflowLimit])

/-- A single change to the settings. -/
inductive Setting where
  | decimalPlaces (places : UInt32)
  | historyLimit (limit : UInt64)
  | unboundedHistory
  | parenMode (mode : ParenMode)
  | overflowLimit (limit : Float)

/-- The settings after a change. -/
def set (c : Config) : Setting → Config
  | .decimalPlaces places => { c with decimalPlaces := places }
  | .historyLimit limit => { c with historyLimit := some limit }
  | .unboundedHistory => { c with historyLimit := none }
  | .parenMode mode => { c with parenMode := mode }
  | .overflowLimit limit => { c with overflowLimit := limit }

/-- The default settings after some changes, the first one first. -/
def ofSettings (settings : List Setting) : Config := settings.foldl set {}

end Config
end PocketCalc
