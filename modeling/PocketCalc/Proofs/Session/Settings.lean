import PocketCalc.Proofs.Session.Recording
import PocketCalc.Proofs.Session.Tidy

/-!
# Settings in force

Settings are changed one by one before a calculator is built, and a later change of the same
setting replaces an earlier one, so what counts is the last value of each (`ofSettings_eq_lastSet`).
A calculator is built from values that are in range, and everything that is wrong with other ones
is said, in a fixed order.

Each limit is then kept in two places: the one of the history with the settings and with the log,
the one of values with the settings and with the evaluator, which is used while an expression is
typed and when it is completed.  `InForce` says that all of them agree with the values last set.
-/

namespace PocketCalc
namespace Config

/-! ## The values last set -/

namespace Setting

def decimalPlaces? : Setting → Option UInt32
  | decimalPlaces places => some places
  | _ => none

/-- The limit of the history that a change asks for.  To have none is a limit, too. -/
def historyLimit? : Setting → Option (Option UInt64)
  | historyLimit limit => some (some limit)
  | unboundedHistory => some none
  | _ => none

def parenMode? : Setting → Option ParenMode
  | parenMode mode => some mode
  | _ => none

def overflowLimit? : Setting → Option Float
  | overflowLimit limit => some limit
  | _ => none

/-- The last of the values that changes ask for, or a default if they ask for none. -/
def last {α : Type} (value? : Setting → Option α) (default : α) (settings : List Setting) : α :=
  (settings.filterMap value?).getLast?.getD default

theorem last_cons {α : Type} (value? : Setting → Option α) (default : α) (s : Setting)
    (rest : List Setting) :
    last value? default (s :: rest) = last value? ((value? s).getD default) rest := by
  unfold last
  cases hs : value? s with
  | none => rw [List.filterMap_cons_none hs, Option.getD_none]
  | some x =>
    rw [List.filterMap_cons_some hs, List.getLast?_cons]
    rfl

end Setting

open Setting (last)

/-- The settings with the last value that each was set to.  One that was not set has its value
from `start`. -/
def lastSetFrom (start : Config) (settings : List Setting) : Config where
  decimalPlaces := last Setting.decimalPlaces? start.decimalPlaces settings
  historyLimit := last Setting.historyLimit? start.historyLimit settings
  parenMode := last Setting.parenMode? start.parenMode settings
  overflowLimit := last Setting.overflowLimit? start.overflowLimit settings

/-- The values last set, from the defaults. -/
def lastSet (settings : List Setting) : Config := lastSetFrom {} settings

theorem set_eq (config : Config) (s : Setting) :
    config.set s =
      { decimalPlaces := s.decimalPlaces?.getD config.decimalPlaces
        historyLimit := s.historyLimit?.getD config.historyLimit
        parenMode := s.parenMode?.getD config.parenMode
        overflowLimit := s.overflowLimit?.getD config.overflowLimit } := by
  cases s with
  | decimalPlaces | historyLimit | unboundedHistory | parenMode | overflowLimit => rfl

theorem foldl_set (start : Config) (settings : List Setting) :
    settings.foldl set start = lastSetFrom start settings := by
  induction settings generalizing start with
  | nil => rfl
  | cons s rest ih =>
    rw [List.foldl_cons, ih, set_eq]
    simp only [lastSetFrom, Setting.last_cons]

/-- Changes made one after the other leave the values last set. -/
theorem ofSettings_eq_lastSet (settings : List Setting) : ofSettings settings = lastSet settings :=
  foldl_set {} settings

/-! ## Settings in range -/

/-- The settings that a calculator can be built with. -/
structure InRange (config : Config) : Prop where
  decimalPlaces_le : config.decimalPlaces.toNat ≤ 15
  historyLimit_ne : config.historyLimit ≠ some 0
  overflowLimit_finite : config.overflowLimit.isFinite
  overflowLimit_pos : 0 < config.overflowLimit

/-- What can be wrong with settings, in the order in which it is said. -/
def checks (config : Config) : List ConfigError :=
  [.decimalPlacesOutOfRange config.decimalPlaces, .zeroHistoryLimit,
    .invalidOverflowLimit config.overflowLimit]

/-- What is wrong with settings. -/
inductive Violates (config : Config) : ConfigError → Prop
  | decimalPlaces (h : 15 < config.decimalPlaces.toNat) :
    Violates config (.decimalPlacesOutOfRange config.decimalPlaces)
  | historyLimit (h : config.historyLimit = some 0) : Violates config .zeroHistoryLimit
  | overflowLimit (h : ¬ (config.overflowLimit.isFinite ∧ 0 < config.overflowLimit)) :
    Violates config (.invalidOverflowLimit config.overflowLimit)

variable {config : Config}

theorem inRange_iff : config.InRange ↔ ∀ e, ¬ config.Violates e := by
  constructor
  · rintro ⟨hplaces, hhistory, hfinite, hpos⟩ e he
    cases he with
    | decimalPlaces h => exact absurd hplaces (Nat.not_le.2 h)
    | historyLimit h => exact hhistory h
    | overflowLimit h => exact h ⟨hfinite, hpos⟩
  · intro hnone
    have hlimit : config.overflowLimit.isFinite ∧ 0 < config.overflowLimit :=
      Classical.not_not.1 fun h => hnone _ (.overflowLimit h)
    exact ⟨Nat.not_lt.1 fun h => hnone _ (.decimalPlaces h), fun h => hnone _ (.historyLimit h),
      hlimit.1, hlimit.2⟩

theorem mem_errors {e : ConfigError} : e ∈ config.errors ↔ config.Violates e := by
  simp only [errors, List.mem_append, List.mem_ite_nil_right, List.mem_ite_nil_left,
    List.mem_singleton]
  constructor
  · rintro ((⟨h, rfl⟩ | ⟨h, rfl⟩) | ⟨h, rfl⟩)
    · exact .decimalPlaces h
    · exact .historyLimit h
    · exact .overflowLimit h
  · intro h
    cases h with
    | decimalPlaces h => exact .inl (.inl ⟨h, rfl⟩)
    | historyLimit h => exact .inl (.inr ⟨h, rfl⟩)
    | overflowLimit h => exact .inr ⟨h, rfl⟩

theorem errors_sublist_checks (config : Config) : config.errors.Sublist config.checks := by
  have hone : ∀ (p : Prop) [Decidable p] (e : ConfigError),
      (if p then [e] else []).Sublist [e] ∧ (if p then [] else [e]).Sublist [e] := by
    intro p _ e
    by_cases hp : p
    · rw [if_pos hp, if_pos hp]
      exact ⟨.refl _, List.nil_sublist _⟩
    · rw [if_neg hp, if_neg hp]
      exact ⟨List.nil_sublist _, .refl _⟩
  exact ((hone _ _).1.append (hone _ _).1).append (hone _ _).2

theorem errors_eq_nil_iff : config.errors = [] ↔ config.InRange := by
  rw [List.eq_nil_iff_forall_not_mem, inRange_iff]
  exact forall_congr' fun e => not_congr mem_errors

end Config

namespace Outcome

/-- What the equals key answers when an expression has this value. -/
def ofValue : Except EvalError Float → Outcome
  | .ok x => evaluated x
  | .error e => failed e

end Outcome

namespace Event

/-- What is reported of the value of an expression while it is typed. -/
def ofValue : Except EvalError Float → Event
  | .ok x => livePreview x
  | .error e => livePreviewUnavailable e

end Event

namespace Calculator

variable {config : Config} {c first : Calculator}

theorem build_of_errors (h : config.errors ≠ []) :
    build config = .error (.invalidConfig config.errors) := by
  unfold build
  cases herrors : config.errors with
  | nil => exact absurd herrors h
  | cons e es => rfl

theorem exists_build_iff : (∃ c, build config = .ok c) ↔ config.InRange := by
  rw [← Config.errors_eq_nil_iff]
  constructor
  · rintro ⟨c, hc⟩
    exact (build_eq_ok.1 hc).1
  · intro herrors
    exact ⟨ofConfig config, build_eq_ok.2 ⟨herrors, rfl⟩⟩

/-- The settings are what a calculator goes by. -/
structure InForce (config : Config) (c : Calculator) : Prop where
  config_eq : c.config = config
  capacity_eq : c.history.capacity = config.historyLimit
  length_le : ∀ n, config.historyLimit = some n → c.history.length ≤ n.toNat
  evaluatorLimit_eq : c.evaluatorLimit = config.overflowLimit
  /-- Whatever the buffer holds, typing evaluates it under these settings. -/
  typing_eq : ∀ b : Buffer, ¬ b.isEmpty → (c.edit b).events = [.ofValue (b.value config)]
  /-- So does the equals key. -/
  equals_eq : ∀ (b : Buffer) (now : Timestamp), c.mode ≠ .error → ¬ b.isEmpty →
    (press { c with buffer := b } now .equals).outcome = .ofValue (b.value config)

theorem events_edit (hlimit : c.evaluatorLimit = c.config.overflowLimit) {b : Buffer}
    (hb : ¬ b.isEmpty) : (c.edit b).events = [.ofValue (b.value c.config)] := by
  rw [← value_of_limit hlimit b]
  cases h : value { c with buffer := b } with
  | ok x => rw [edit_ok hb h, Event.ofValue]
  | error e => rw [edit_error hb h, Event.ofValue]

theorem outcome_press_equals_eq (hlimit : c.evaluatorLimit = c.config.overflowLimit)
    (now : Timestamp) (hmode : c.mode ≠ .error) (hb : ¬ c.buffer.isEmpty) :
    (c.press now .equals).outcome = .ofValue (c.buffer.value c.config) := by
  have hvalue : c.value = c.buffer.value c.config := value_of_limit hlimit c.buffer
  rw [← hvalue]
  show (c.pressEquals now).outcome = _
  cases h : c.value with
  | error e =>
    rw [pressEquals_fails now hmode (fun _ => hb) h]
    rfl
  | ok x =>
    cases hc : c.mode with
    | entering =>
      rw [pressEquals_entering now hc hb h]
      rfl
    | resultShown =>
      rw [pressEquals_resultShown now hc h]
      rfl
    | error => exact absurd hc hmode

theorem Reachable.config_eq (h : Reachable first c) : c.config = first.config := by
  induction h with
  | first => rfl
  | act _ times a ih =>
    refine act_of_step (P := fun d => d.config = first.config) ih ?_ times a
    intro now d d' o hd hstep
    exact (config_step hstep).trans hd

theorem inForce_of_reachable (hbuild : build config = .ok first) (h : Reachable first c) :
    InForce config c := by
  have hc : InUse c := ⟨first, .built hbuild, h⟩
  have hconfig : c.config = config := by
    obtain ⟨-, rfl⟩ := build_eq_ok.1 hbuild
    exact h.config_eq
  have hcapacity : c.history.capacity = config.historyLimit := hconfig ▸ capacity_of_inUse hc
  have hlimit : c.evaluatorLimit = c.config.overflowLimit := evaluatorLimit_of_inUse hc
  exact {
    config_eq := hconfig
    capacity_eq := hcapacity
    length_le := fun n hn => (bounded_of_inUse hc).length_le n (hcapacity.trans hn)
    evaluatorLimit_eq := hconfig ▸ hlimit
    typing_eq := fun b hb => hconfig ▸ events_edit hlimit hb
    equals_eq := fun b now hmode hb =>
      hconfig ▸ outcome_press_equals_eq (c := { c with buffer := b }) hlimit now hmode hb }

/-- Changes of settings, in any order, give a calculator exactly if the values last set are in
range.  If not, all that is wrong with these is said, places before history before limit.  If so,
they are in force in every calculator that can be reached from the one built. -/
theorem built_settings_in_force (settings : List Config.Setting) :
    ((∃ first, build (.ofSettings settings) = .ok first) ↔ (Config.lastSet settings).InRange) ∧
    (¬ (Config.lastSet settings).InRange →
      ∃ errors, build (.ofSettings settings) = .error (.invalidConfig errors) ∧
        errors.Sublist (Config.lastSet settings).checks ∧
        ∀ e, e ∈ errors ↔ (Config.lastSet settings).Violates e) ∧
    ∀ first c, build (.ofSettings settings) = .ok first → Reachable first c →
      InForce (Config.lastSet settings) c := by
  rw [Config.ofSettings_eq_lastSet]
  refine ⟨exists_build_iff, fun hrange => ?_, fun first c => inForce_of_reachable⟩
  have herrors : (Config.lastSet settings).errors ≠ [] :=
    fun h => hrange (Config.errors_eq_nil_iff.1 h)
  exact ⟨_, build_of_errors herrors, Config.errors_sublist_checks _, fun _ => Config.mem_errors⟩

/-- Two places, one entry and a limit of a thousand, each after other values.  `999+1` replaces
`1÷3` in the history, and `1000+1` is beyond the limit.  With two more changes nothing is built. -/
theorem built_settings_in_force_replaced :
    let now : Timestamp := ⟨2024, 1, 2, 3, 4, 5, by decide⟩
    let settings : List Config.Setting := [.historyLimit 0, .overflowLimit 1000,
      .decimalPlaces 99, .unboundedHistory, .decimalPlaces 2, .historyLimit 1]
    let wrong := settings ++ [.overflowLimit (0 / 0), .decimalPlaces 16]
    let first := ofConfig (.ofSettings settings)
    let c := first.act now (.pressAll [.digit 1, .operator .div, .digit 3, .equals, .digit 9,
      .digit 9, .digit 9, .operator .add, .digit 1, .equals])
    build (.ofSettings settings) = .ok first ∧
      Config.lastSet settings =
        { decimalPlaces := 2, historyLimit := some 1, overflowLimit := 1000 } ∧
      (Config.lastSet settings).InRange ∧ InForce (Config.lastSet settings) c ∧
      c.evaluatorLimit = 1000 ∧ c.history.lines = ["999+1 = 1000"] ∧
      (press { c with buffer := ⟨[.number "1000", .operator .add, .number "1"]⟩ } now
        .equals).outcome = .failed .overflow ∧
      ∃ errors, build (.ofSettings wrong) = .error (.invalidConfig errors) ∧
        ∀ e, e ∈ errors ↔ (Config.lastSet wrong).Violates e := by
  intro now settings wrong first c
  have hbuild : build (.ofSettings settings) = .ok first :=
    build_eq_ok.2 ⟨by decide +kernel, rfl⟩
  obtain ⟨hbuilds, -, hforce⟩ := built_settings_in_force settings
  obtain ⟨-, hwrong, -⟩ := built_settings_in_force wrong
  have hc : InForce (Config.lastSet settings) c :=
    hforce first c hbuild (Reachable.first.act now _)
  have hrange : ¬ (Config.lastSet wrong).InRange := fun h =>
    absurd h.decimalPlaces_le (by decide +kernel)
  obtain ⟨errors, herrors, -, hmem⟩ := hwrong hrange
  have hlimit : (Config.lastSet settings).overflowLimit = 1000 := by decide +kernel
  refine ⟨hbuild, by decide +kernel, hbuilds.1 ⟨first, hbuild⟩, hc,
    hc.evaluatorLimit_eq.trans hlimit, by decide +kernel, ?_, errors, herrors, hmem⟩
  rw [hc.equals_eq _ now (by decide +kernel) (by decide)]
  decide +kernel

end Calculator
end PocketCalc
