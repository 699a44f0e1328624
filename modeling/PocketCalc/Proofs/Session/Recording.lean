import PocketCalc.Proofs.Session.Step

/-!
# What the history records

A computation is completed by the equals key when it is pressed while an expression is being
typed and gives a result.  `completions` lists the computations that a run completes, without
looking at the history, and `history_of_run` says that the history is the end of that list, as
much of it as the settings let a log keep.
-/

namespace PocketCalc

/-- What an entry says, but for the moment it was recorded at. -/
def HistoryEntry.computation (e : HistoryEntry) : String × Float := (e.expression, e.result)

namespace History

/-- The computations in a log, oldest first. -/
def computations (h : History) : List (String × Float) := h.entries.map HistoryEntry.computation

/-- The end of a list that a log of the given capacity keeps. -/
def kept {α : Type} (capacity : Option UInt64) (xs : List α) : List α :=
  match capacity with
  | none => xs
  | some n => xs.drop (xs.length - n.toNat)

theorem toNat_ne_zero {n : UInt64} (h : some n ≠ some 0) : n.toNat ≠ 0 :=
  fun h0 => h (congrArg some (UInt64.toNat_inj.1 h0))

section
variable {α β : Type} (capacity : Option UInt64)

theorem kept_nil : kept capacity ([] : List α) = [] := by
  cases capacity with
  | none => rfl
  | some n => exact List.drop_nil

theorem kept_singleton {capacity : Option UInt64} (x : α) (h : capacity ≠ some 0) :
    kept capacity [x] = [x] := by
  cases capacity with
  | none => rfl
  | some n =>
    have hn := toNat_ne_zero h
    show [x].drop (1 - n.toNat) = [x]
    rw [Nat.sub_eq_zero_of_le (Nat.one_le_iff_ne_zero.2 hn), List.drop_zero]

theorem map_kept (f : α → β) (xs : List α) :
    (kept capacity xs).map f = kept capacity (xs.map f) := by
  cases capacity with
  | none => rfl
  | some n =>
    show (xs.drop (xs.length - n.toNat)).map f = (xs.map f).drop ((xs.map f).length - n.toNat)
    rw [List.map_drop, List.length_map]

theorem kept_eq_self {capacity : Option UInt64} {xs : List α}
    (h : ∀ n, capacity = some n → xs.length ≤ n.toNat) : kept capacity xs = xs := by
  cases capacity with
  | none => rfl
  | some n =>
    show xs.drop (xs.length - n.toNat) = xs
    rw [Nat.sub_eq_zero_of_le (h n rfl), List.drop_zero]

theorem kept_append (xs ys : List α) :
    kept capacity (kept capacity xs ++ ys) = kept capacity (xs ++ ys) := by
  cases capacity with
  | none => rfl
  | some n =>
    -- What was dropped once would be dropped later anyway.
    simp only [kept, List.length_append, List.length_drop, List.drop_append, List.drop_drop]
    congr 2
    · omega
    · omega

theorem kept_append_kept (xs ys : List α) :
    kept capacity (xs ++ kept capacity ys) = kept capacity (xs ++ ys) := by
  cases capacity with
  | none => rfl
  | some n =>
    rcases Nat.le_total ys.length n.toNat with hle | hge
    · have hall : kept (some n) ys = ys := kept_eq_self fun m hm => Option.some.inj hm ▸ hle
      rw [hall]
    · -- Nothing in front of a list that fills the log is kept.
      have hfront : ∀ zs : List α, n.toNat ≤ zs.length →
          kept (some n) (xs ++ zs) = zs.drop (zs.length - n.toNat) := by
        intro zs hzs
        show (xs ++ zs).drop ((xs ++ zs).length - n.toNat) = _
        rw [List.length_append, Nat.add_sub_assoc hzs, List.drop_length_add_append]
      have hlength : (kept (some n) ys).length = n.toNat := by
        show (ys.drop (ys.length - n.toNat)).length = n.toNat
        rw [List.length_drop]
        omega
      rw [hfront _ (Nat.le_of_eq hlength.symm), hfront ys hge, hlength, Nat.sub_self,
        List.drop_zero]
      rfl

theorem getLast?_kept_append (xs : List α) (x : α) (h : capacity ≠ some 0) :
    (kept capacity (xs ++ [x])).getLast? = some x := by
  cases capacity with
  | none => exact List.getLast?_concat
  | some n =>
    have hn := toNat_ne_zero h
    show ((xs ++ [x]).drop ((xs ++ [x]).length - n.toNat)).getLast? = some x
    rw [List.length_append, List.length_singleton, List.drop_append_of_le_length (by omega)]
    exact List.getLast?_concat

end

theorem entries_record (h : History) (e : HistoryEntry) :
    (h.record e).entries = kept h.capacity (h.entries ++ [e]) := by
  unfold record kept
  cases h.capacity with
  | none => rfl
  | some n => rfl

theorem computations_record (h : History) (e : HistoryEntry) :
    (h.record e).computations = kept h.capacity (h.computations ++ [e.computation]) := by
  rw [computations, entries_record, map_kept, List.map_append]
  rfl

/-- A log that keeps at least one entry and no more than its capacity. -/
structure Bounded (h : History) : Prop where
  capacity_ne : h.capacity ≠ some 0
  length_le : ∀ n, h.capacity = some n → h.length ≤ n.toNat

theorem Bounded.record {h : History} (hh : h.Bounded) (e : HistoryEntry) :
    (h.record e).Bounded where
  capacity_ne := capacity_record h e ▸ hh.capacity_ne
  length_le _ hn := length_record_le h e (capacity_record h e ▸ hn)

/-- What is recorded is the last entry. -/
theorem Bounded.last?_record {h : History} (hh : h.Bounded) (e : HistoryEntry) :
    (h.record e).last? = some e := by
  rw [last?, entries_record]
  exact getLast?_kept_append _ _ _ hh.capacity_ne

/-- Whether a log has no room for one more entry. -/
def isFull (h : History) : Bool := h.capacity.any fun n => n.toNat ≤ h.length

/-- Recording adds one entry, and a full log forgets its oldest one for it. -/
theorem Bounded.record_eq {h : History} (hh : h.Bounded) (e : HistoryEntry) :
    h.record e =
      { h with entries := (if h.isFull then h.entries.tail else h.entries) ++ [e] } := by
  have hrecord : h.record e = { h with entries := kept h.capacity (h.entries ++ [e]) } := by
    rw [← entries_record, ← capacity_record h e]
  rw [hrecord]
  congr 1
  unfold isFull
  cases hcapacity : h.capacity with
  | none => rfl
  | some n =>
    have hle : h.entries.length ≤ n.toNat := hh.length_le n hcapacity
    have hn := toNat_ne_zero (hcapacity ▸ hh.capacity_ne)
    show (h.entries ++ [e]).drop ((h.entries ++ [e]).length - n.toNat) = _
    rw [Option.any_some, List.length_append, List.length_singleton]
    by_cases hfull : n.toNat ≤ h.length
    · have hone : h.entries.length + 1 - n.toNat = 1 := by
        change n.toNat ≤ h.entries.length at hfull
        omega
      have hne : h.entries ≠ [] := fun hnil => by
        rw [length, hnil, List.length_nil] at hfull
        omega
      rw [if_pos (decide_eq_true hfull), hone, List.drop_one, List.tail_append_of_ne_nil hne]
    · have hzero : h.entries.length + 1 - n.toNat = 0 := by
        change ¬ n.toNat ≤ h.entries.length at hfull
        omega
      rw [if_neg (fun h => hfull (of_decide_eq_true h)), hzero, List.drop_zero]

/-- The log holds what its capacity lets it keep of the computations `log`. -/
def Keeps (h : History) (log : List (String × Float)) : Prop :=
  h.entries.map HistoryEntry.computation = kept h.capacity log

theorem Keeps.record {h : History} {log : List (String × Float)} (hlog : h.Keeps log)
    (e : HistoryEntry) : (h.record e).Keeps (log ++ [e.computation]) := by
  have hold : h.computations = kept h.capacity log := hlog
  show (h.record e).computations = kept (h.record e).capacity (log ++ [e.computation])
  rw [computations_record, capacity_record, hold, kept_append]

end History

namespace Calculator

/-- The computation that a key completes, if it is the equals key, pressed while an expression
is being typed, and gives a result: the expression as it is shown, and the result. -/
def completed? (c : Calculator) (now : Timestamp) (key : Key) : Option (String × Float) :=
  if c.mode = .entering ∧ key = .equals then
    match (c.press now key).outcome with
    | .evaluated x => some (c.buffer.render, x)
    | _ => none
  else none

/-- The computations that keys complete, one key after the other. -/
def completedBy (c : Calculator) (times : Moments) : List Key → List (String × Float)
  | [] => []
  | key :: keys =>
    (c.completed? times.first key).toList ++
      (c.press times.first key).next.completedBy times.later keys

end Calculator

/-- The keys that an action presses.  A symbol that stands for no key presses none. -/
def Action.keys : Action → List Key
  | press key => [key]
  | pressSymbol symbol => (Key.ofSymbol symbol).toOption.toList
  | pressAll keys => keys
  | selectLine _ | clear => []

namespace Calculator

/-- The computations that a run completes, in order. -/
def completions (c : Calculator) : List (Moments × Action) → List (String × Float)
  | [] => []
  | (times, a) :: rest => c.completedBy times a.keys ++ (c.act times a).completions rest

/-! ## A single key -/

variable {c : Calculator} {now : Timestamp} {times : Moments}

theorem outcome_press_of_ne {key : Key} (hkey : key ≠ .equals) :
    (c.press now key).outcome = .updated ∨ (c.press now key).outcome = .ignored := by
  rw [outcome_press]
  cases answers_handle c now hkey with
  | edited d b h =>
    rw [h]
    exact .inl (outcome_edit d b)
  | changed d h =>
    rw [h]
    exact .inl rfl
  | ignored h | operatorRejected reason op h | percentRejected reason h
  | noSuchEntry index length h =>
    rw [h]
    exact .inr rfl

theorem completed?_eq_some {key : Key} {p : String × Float} (h : c.completed? now key = some p) :
    c.mode = .entering ∧ key = .equals ∧ (c.press now key).outcome = .evaluated p.2 ∧
      p.1 = c.buffer.render := by
  unfold completed? at h
  split at h
  · next hpressed =>
    split at h
    · next x hx =>
      cases h
      exact ⟨hpressed.1, hpressed.2, hx, rfl⟩
    · cases h
  · cases h

/-- A completed computation is recorded at its moment, with the rounded value of the
expression. -/
theorem history_press_of_completed {key : Key} {s : String} {x : Float}
    (h : c.completed? now key = some (s, x)) :
    c.value = .ok x ∧ (c.press now key).next.history = c.history.record ⟨s, x, now⟩ := by
  obtain ⟨hmode, rfl, houtcome, hs⟩ := completed?_eq_some h
  obtain rfl : s = c.buffer.render := hs
  have hstep := step_press c now .equals
  rw [houtcome] at hstep
  generalize hnext : (c.press now .equals).next = c' at hstep ⊢
  cases hstep with
  | recorded _ hx => exact ⟨hx, rfl⟩
  | shownAgain hshown _ => exact nomatch hmode.symm.trans hshown

theorem history_press_of_not_completed {key : Key} (h : c.completed? now key = none) :
    (c.press now key).next.history = c.history := by
  rcases history_step (step_press c now key) with hsame | ⟨x, hmode, -, houtcome, -⟩
  · exact hsame
  · -- Only the equals key gives a result, and then the computation is completed.
    by_cases hkey : key = .equals
    · unfold completed? at h
      rw [if_pos ⟨hmode, hkey⟩, houtcome] at h
      cases h
    · have hother : (c.press now key).outcome = .updated ∨ (c.press now key).outcome = .ignored :=
        outcome_press_of_ne hkey
      rcases hother with hupdated | hignored
      · exact nomatch houtcome.symm.trans hupdated
      · exact nomatch houtcome.symm.trans hignored

/-! ## Runs -/

theorem keeps_press {log : List (String × Float)} (hlog : c.history.Keeps log) (key : Key) :
    (c.press now key).next.history.Keeps (log ++ (c.completed? now key).toList) := by
  cases h : c.completed? now key with
  | none =>
    rw [history_press_of_not_completed h, Option.toList_none, List.append_nil]
    exact hlog
  | some p =>
    rw [(history_press_of_completed h).2]
    exact hlog.record ⟨p.1, p.2, now⟩

theorem keeps_pressAll {log : List (String × Float)} (hlog : c.history.Keeps log)
    (keys : List Key) :
    (c.pressAll times keys).1.history.Keeps (log ++ c.completedBy times keys) := by
  induction keys generalizing c log times with
  | nil =>
    rw [completedBy, List.append_nil]
    exact hlog
  | cons key keys ih =>
    rw [pressAll_cons, completedBy, ← List.append_assoc]
    exact ih (keeps_press hlog key)

/-- A symbol is the key that it stands for, or no key at all. -/
theorem act_pressSymbol (c : Calculator) (times : Moments) (symbol : String) :
    c.act times (.pressSymbol symbol) =
      (c.pressAll times (Action.pressSymbol symbol).keys).1 := by
  cases h : Key.ofSymbol symbol with
  | ok key =>
    rw [act_pressSymbol_ok c times h, Action.keys, h]
    rfl
  | error e =>
    rw [act_pressSymbol_error c times h, Action.keys, h]
    rfl

/-- An action is the keys it presses, or it leaves the history as it is. -/
theorem history_act (a : Action) :
    (c.act times a).history = (c.pressAll times a.keys).1.history := by
  cases a with
  | press key => rfl
  | pressAll keys => rfl
  | clear => rfl
  | pressSymbol symbol => rw [act_pressSymbol]
  | selectLine line =>
    show (c.selectLine line).next.history = c.history
    unfold selectLine
    split
    · rfl
    · rfl

theorem keeps_act {log : List (String × Float)} (hlog : c.history.Keeps log) (a : Action) :
    (c.act times a).history.Keeps (log ++ c.completedBy times a.keys) := by
  rw [history_act]
  exact keeps_pressAll hlog a.keys

theorem keeps_run {log : List (String × Float)} (hlog : c.history.Keeps log)
    (r : List (Moments × Action)) : (c.run r).history.Keeps (log ++ c.completions r) := by
  induction r generalizing c log with
  | nil =>
    rw [completions, List.append_nil]
    exact hlog
  | cons step rest ih =>
    obtain ⟨times, a⟩ := step
    rw [run, completions, ← List.append_assoc]
    exact ih (keeps_act hlog a)

theorem history_act_of_completedBy_eq_nil (a : Action) (h : c.completedBy times a.keys = []) :
    (c.act times a).history = c.history := by
  rw [history_act]
  generalize a.keys = keys at h
  induction keys generalizing c times with
  | nil => rfl
  | cons key keys ih =>
    rw [completedBy] at h
    obtain ⟨hkey, hkeys⟩ := List.append_eq_nil_iff.1 h
    rw [pressAll_cons, ih hkeys]
    exact history_press_of_not_completed (Option.toList_eq_nil_iff.1 hkey)

theorem capacity_step {c' : Calculator} {o : Outcome} (h : Step now c c' o) :
    c'.history.capacity = c.history.capacity := by
  rcases history_step h with hsame | ⟨x, -, -, -, hrecord⟩
  · rw [hsame]
  · rw [hrecord, History.capacity_record]

theorem capacity_act (a : Action) : (c.act times a).history.capacity = c.history.capacity := by
  refine act_of_step (P := fun d => d.history.capacity = c.history.capacity) rfl ?_ times a
  intro now d d' o hd hstep
  exact (capacity_step hstep).trans hd

theorem capacity_run (r : List (Moments × Action)) :
    (c.run r).history.capacity = c.history.capacity := by
  induction r generalizing c with
  | nil => rfl
  | cons step rest ih =>
    obtain ⟨times, a⟩ := step
    rw [run, ih, capacity_act]

theorem historyLimit_ne_zero {config : Config} (h : config.errors = []) :
    config.historyLimit ≠ some 0 := by
  intro hzero
  obtain ⟨h, -⟩ := List.append_eq_nil_iff.1 h
  obtain ⟨-, h⟩ := List.append_eq_nil_iff.1 h
  rw [if_pos hzero] at h
  cases h

/-- The history of a calculator in use has the capacity asked for. -/
theorem capacity_of_inUse (h : InUse c) : c.history.capacity = c.config.historyLimit := by
  refine h.induction (P := fun d => d.history.capacity = d.config.historyLimit)
    (fun _ _ => rfl) ?_
  intro now d d' o hd hstep
  rw [capacity_step hstep, config_step hstep, hd]

theorem bounded_of_inUse (h : InUse c) : c.history.Bounded := by
  refine h.induction (P := fun d => d.history.Bounded) (fun config herrors => ?_) ?_
  · exact ⟨historyLimit_ne_zero herrors, fun _ _ => Nat.zero_le _⟩
  · intro now d d' o hd hstep
    rcases history_step hstep with hsame | ⟨x, -, -, -, hrecord⟩
    · rwa [hsame]
    · rw [hrecord]
      exact hd.record _

/-- After every run of a calculator that could be built, the history is the end of the list of
the computations that the run has completed, or all of it if the history is not limited.  An
action that completes no computation leaves the history as it is, and a completed one is the
last entry at once, with the rounded value of the expression and the moment of the key. -/
theorem history_of_run {config : Config} {first : Calculator} (h : build config = .ok first)
    (r : List (Moments × Action)) :
    (first.run r).history.entries.map HistoryEntry.computation =
      History.kept config.historyLimit (first.completions r) ∧
    (∀ times a, (first.run r).completedBy times a.keys = [] →
      ((first.run r).act times a).history = (first.run r).history) ∧
    ∀ now key s x, (first.run r).completed? now key = some (s, x) →
      (first.run r).value = .ok x ∧
        ((first.run r).press now key).next.history.last? = some ⟨s, x, now⟩ := by
  obtain ⟨herrors, rfl⟩ := build_eq_ok.1 h
  have hcapacity : ((ofConfig config).run r).history.capacity = config.historyLimit :=
    capacity_run r
  have hempty : (ofConfig config).history.Keeps [] := (History.kept_nil _).symm
  have hkeeps := keeps_run hempty r
  unfold History.Keeps at hkeeps
  rw [hcapacity] at hkeeps
  refine ⟨hkeeps, fun times a => history_act_of_completedBy_eq_nil a, ?_⟩
  intro now key s x hcompleted
  obtain ⟨hvalue, hhistory⟩ := history_press_of_completed hcompleted
  refine ⟨hvalue, ?_⟩
  rw [hhistory, History.last?, History.entries_record, hcapacity]
  exact History.getLast?_kept_append _ _ _ (historyLimit_ne_zero herrors)

/-- A history of two entries after `1=`, `+2=`, a division by zero and, once the result of the
second computation is picked again, `×3=`. -/
theorem history_of_run_limited :
    let now : Timestamp := ⟨2024, 1, 2, 3, 4, 5, by decide⟩
    let config : Config := { historyLimit := some 2 }
    let r : List (Moments × Action) := [
      (now, .pressAll [.digit 1, .equals, .equals, .operator .add, .digit 2, .equals]),
      (now, .pressAll [.digit 1, .operator .div, .digit 0, .equals]),
      (now, .selectLine "1+2 = 3"), (now, .pressSymbol "×"), (now, .pressSymbol "3")]
    build config = .ok (ofConfig config) ∧
      ((ofConfig config).run r).history.entries.map HistoryEntry.computation =
        [("1", 1), ("1+2", 3)] ∧
      (((ofConfig config).run r).press now .equals).next.history.last? = some ⟨"3×3", 9, now⟩ := by
  intro now config r
  have hbuild : build config = .ok (ofConfig config) := build_eq_ok.2 ⟨by decide +kernel, rfl⟩
  have hcompleted : ((ofConfig config).run r).completed? now .equals = some ("3×3", 9) := by
    decide +kernel
  obtain ⟨hentries, -, hlast⟩ := history_of_run hbuild r
  refine ⟨hbuild, ?_, (hlast now .equals _ _ hcompleted).2⟩
  rw [hentries]
  decide +kernel

end Calculator
end PocketCalc
