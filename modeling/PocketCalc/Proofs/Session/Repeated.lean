import PocketCalc.Proofs.Session.Afresh

/-!
# The equals key again

The equals key evaluates what is in the buffer even when its result is already shown.  That buffer
is still the one of the first evaluation, since the keys between do not reach it, so the same
result comes out and takes the place of itself: a settled calculator (`Settled`) answers an idle
key and, but for the overlay, stays as it is.
-/

namespace PocketCalc

/-- The keys that begin nothing and pick nothing while a result is shown. -/
inductive Key.Idles (h : History) : Key → Prop
  | equals : Idles h .equals
  | percent : Idles h .percent
  | backspace : Idles h .backspace
  | openHistory : Idles h .openHistory
  | closeHistory : Idles h .closeHistory
  | digit {n : UInt8} (hn : ¬ n < 10) : Idles h (.digit n)
  | selectHistory {i : UInt64} (hi : h.length ≤ i.toNat) : Idles h (.selectHistory i)

namespace Key

/-- What an idle key answers while the result `x` is shown. -/
def idleAnswer (x : Float) : Key → Outcome
  | equals => .evaluated x
  | openHistory | closeHistory => .updated
  | _ => .ignored

/-- Whether the history is open after an idle key. -/
def overlay (isOpen : Bool) : Key → Bool
  | openHistory => true
  | closeHistory => false
  | _ => isOpen

end Key

namespace Calculator

/-- The value of the expression in the buffer is shown as its result. -/
structure Settled (x : Float) (c : Calculator) : Prop where
  mode_eq : c.mode = .resultShown
  value_eq : c.value = .ok x
  lastResult_eq : c.lastResult = some x
  liveValue_eq : c.liveValue = some x
  error_eq : c.error = none

variable {c : Calculator} {x : Float}

theorem settled_of_equals {now : Timestamp} (hmode : c.mode = .entering)
    (hequals : (c.press now .equals).outcome = .evaluated x) :
    Settled x (c.press now .equals).next := by
  have hstep := step_press c now .equals
  rw [hequals] at hstep
  generalize (c.press now .equals).next = c' at hstep
  cases hstep with
  | recorded _ hx => exact ⟨rfl, hx, rfl, rfl, rfl⟩
  | shownAgain hshown _ => exact nomatch hmode.symm.trans hshown

namespace Settled

/-- To succeed once more changes nothing. -/
theorem succeed_eq (h : Settled x c) : c.succeed x = c := by
  obtain ⟨⟨buffer, live, mode, error, last, history, isOpen⟩, config, limit⟩ := c
  obtain ⟨hmode, -, hlast, hlive, herror⟩ := h
  cases hmode
  cases hlast
  cases hlive
  cases herror
  rfl

theorem overlaid (h : Settled x c) (isOpen : Bool) :
    Settled x { c with historyOpen := isOpen } :=
  ⟨h.mode_eq, h.value_eq, h.lastResult_eq, h.liveValue_eq, h.error_eq⟩

theorem handle_idle (h : Settled x c) (now : Timestamp) {key : Key}
    (hkey : key.Idles c.history) :
    (c.handle now key).outcome = key.idleAnswer x ∧
      (c.handle now key).next = { c with historyOpen := key.overlay c.historyOpen } := by
  have hmode := h.mode_eq
  cases hkey with
  | equals =>
    show (c.pressEquals now).outcome = _ ∧ (c.pressEquals now).next = c
    rw [pressEquals_resultShown now hmode h.value_eq]
    exact ⟨rfl, h.succeed_eq⟩
  | percent =>
    have hignore : c.pressPercent = c.ignore := by simp only [pressPercent, hmode]
    rw [handle, hignore]
    exact ⟨rfl, rfl⟩
  | backspace =>
    have hignore : c.pressBackspace = c.ignore := by simp only [pressBackspace, hmode]
    rw [handle, hignore]
    exact ⟨rfl, rfl⟩
  | openHistory | closeHistory => exact ⟨rfl, rfl⟩
  | digit hn =>
    simp only [handle, Key.digitChar?, if_neg hn]
    exact ⟨rfl, rfl⟩
  | @selectHistory i hi =>
    have hnone : c.history.get? i = none := List.getElem?_eq_none hi
    simp only [handle, selectEntry, hnone]
    exact ⟨rfl, rfl⟩

/-- Idle keys, one after the other, are answered one by one and change nothing but the overlay. -/
theorem responses_idle (h : Settled x c) (r : List (Timestamp × Key))
    (hidle : ∀ p ∈ r, p.2.Idles c.history) :
    List.Forall₂ (fun p response => response.outcome = p.2.idleAnswer x) r (c.responses r) ∧
      c.run (r.map (Prod.map .always .press)) =
        { c with historyOpen := (r.map Prod.snd).foldl Key.overlay c.historyOpen } := by
  induction r generalizing c with
  | nil => exact ⟨.nil, rfl⟩
  | cons p rest ih =>
    obtain ⟨now, key⟩ := p
    obtain ⟨hkey, hrest⟩ := List.forall_mem_cons.1 hidle
    obtain ⟨houtcome, hnext⟩ := h.handle_idle now hkey
    have hpressed : (c.press now key).next = { c with historyOpen := key.overlay c.historyOpen } :=
      hnext
    obtain ⟨hanswers, hrun⟩ := ih (h.overlaid (key.overlay c.historyOpen)) hrest
    rw [← hpressed] at hanswers
    refine ⟨.cons houtcome hanswers, ?_⟩
    show (c.press now key).next.run _ = _
    rw [hpressed, hrun]
    rfl

end Settled

/-- After the equals key has given a result, idle keys change nothing but whether the history is
open.  Each equals key among them gives the result again, and each percent sign and each deletion
is refused. -/
theorem equals_is_idempotent {now : Timestamp} (hmode : c.mode = .entering)
    (hequals : (c.press now .equals).outcome = .evaluated x) (r : List (Timestamp × Key))
    (hidle : ∀ p ∈ r, p.2.Idles (c.press now .equals).next.history) :
    List.Forall₂ (fun p response => response.outcome = p.2.idleAnswer x) r
        ((c.press now .equals).next.responses r) ∧
      (c.press now .equals).next.run (r.map (Prod.map .always .press)) =
        { (c.press now .equals).next with
          historyOpen := (r.map Prod.snd).foldl Key.overlay
            (c.press now .equals).next.historyOpen } :=
  (settled_of_equals hmode hequals).responses_idle r hidle

/-- `+1÷3=` after a result, with two places and one entry kept, then the equals key twice more
among other idle keys. -/
theorem equals_is_idempotent_quotient :
    let now : Timestamp := ⟨2024, 1, 2, 3, 4, 5, by decide⟩
    let c := (ofConfig { decimalPlaces := 2, historyLimit := some 1 }).act now
      (.pressAll [.digit 1, .equals, .operator .add, .digit 1, .operator .div, .digit 3])
    let r : List (Timestamp × Key) := [(now, .equals), (now, .percent), (now, .openHistory),
      (now, .selectHistory 1), (now, .digit 10), (now, .backspace), (now, .equals)]
    InUse c ∧ c.mode = .entering ∧ (c.press now .equals).outcome = .evaluated 1.33 ∧
      (∀ p ∈ r, p.2.Idles (c.press now .equals).next.history) ∧
      List.Forall₂ (fun p response => response.outcome = p.2.idleAnswer 1.33) r
        ((c.press now .equals).next.responses r) ∧
      (c.press now .equals).next.run (r.map (Prod.map .always .press)) =
        { (c.press now .equals).next with historyOpen := true } ∧
      (c.press now .equals).next.history.lines = ["1+1÷3 = 1.33"] := by
  intro now c r
  have hc : InUse c := (inUse_ofConfig (by decide +kernel)).act now _
  have hmode : c.mode = .entering := by decide +kernel
  have hequals : (c.press now .equals).outcome = .evaluated 1.33 := by decide +kernel
  have hone : (c.press now .equals).next.history.length ≤ (1 : UInt64).toNat := by decide +kernel
  have hten : ¬ (10 : UInt8) < 10 := by decide
  have hidle : ∀ p ∈ r, p.2.Idles (c.press now .equals).next.history := by
    simp only [r, List.forall_mem_cons]
    exact ⟨.equals, .percent, .openHistory, .selectHistory hone, .digit hten, .backspace,
      .equals, List.forall_mem_nil _⟩
  obtain ⟨hanswers, hrun⟩ := equals_is_idempotent hmode hequals r hidle
  exact ⟨hc, hmode, hequals, hidle, hanswers, hrun, by decide +kernel⟩

end Calculator
end PocketCalc
