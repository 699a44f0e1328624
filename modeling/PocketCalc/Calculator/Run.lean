import PocketCalc.Calculator.Press

/-!
# Runs

What can be done with a calculator, one thing after the other, and the calculators that
can be reached in this way.  Every run is a run of single steps, so what all steps keep
holds of everything that can be reached.
-/

namespace PocketCalc

/-- A single thing done with a calculator. -/
inductive Action where
  | press (key : Key)
  | pressSymbol (symbol : String)
  | pressAll (keys : List Key)
  | selectLine (line : String)
  | clear
deriving DecidableEq

namespace Calculator

/-- The calculator after an action.  Every key that an action presses has its own moment, and a
symbol that stands for no key changes nothing. -/
def act (c : Calculator) (times : Moments) : Action → Calculator
  | .press key => (c.press times.first key).next
  | .pressSymbol symbol =>
    match c.pressSymbol times.first symbol with
    | .ok r => r.next
    | .error _ => c
  | .pressAll keys => (c.pressAll times keys).1
  | .selectLine line => (c.selectLine line).next
  | .clear => c.clear

/-- The calculator after a run of actions, each at its own moments. -/
def run (c : Calculator) : List (Moments × Action) → Calculator
  | [] => c
  | (times, a) :: rest => (c.act times a).run rest

/-- The calculators that actions lead to from a first one. -/
inductive Reachable (first : Calculator) : Calculator → Prop where
  | first : Reachable first first
  | act {c : Calculator} (h : Reachable first c) (times : Moments) (a : Action) :
    Reachable first (c.act times a)

theorem act_pressSymbol_ok {symbol : String} {key : Key} (c : Calculator) (times : Moments)
    (h : Key.ofSymbol symbol = .ok key) :
    c.act times (.pressSymbol symbol) = (c.press times.first key).next := by
  simp only [act, pressSymbol, h, Except.map]

theorem act_pressSymbol_error {symbol : String} {e : KeyError} (c : Calculator) (times : Moments)
    (h : Key.ofSymbol symbol = .error e) : c.act times (.pressSymbol symbol) = c := by
  simp only [act, pressSymbol, h, Except.map]

/-- Keys pressed together are keys pressed one by one. -/
theorem pressAll_cons (c : Calculator) (times : Moments) (key : Key) (keys : List Key) :
    (c.pressAll times (key :: keys)).1 =
      ((c.press times.first key).next.pressAll times.later keys).1 := rfl

/-- What single presses, lines and clearing keep, every action keeps. -/
theorem act_induction {P : Calculator → Prop} {c : Calculator} (times : Moments) (a : Action)
    (hc : P c) (press : ∀ c now key, P c → P (c.press now key).next)
    (line : ∀ c text, P c → P (c.selectLine text).next) (clear : ∀ c, P c → P c.clear) :
    P (c.act times a) := by
  cases a with
  | press key => exact press c times.first key hc
  | pressSymbol symbol =>
    simp only [act, pressSymbol]
    cases Key.ofSymbol symbol with
    | ok key => exact press c times.first key hc
    | error e => exact hc
  | pressAll keys =>
    simp only [act]
    induction keys generalizing c times with
    | nil => exact hc
    | cons key keys ih => exact ih times.later (press c times.first key hc)
  | selectLine text => exact line c text hc
  | clear => exact clear c hc

end Calculator
end PocketCalc
