import PocketCalc.Proofs.Buffer.FirstNumber
import PocketCalc.Proofs.Session.Keypad
import PocketCalc.Proofs.Session.Recording
import PocketCalc.Proofs.Session.Tidy

/-!
# Continuing from a result

An operator after a result puts the text of the result before itself, as a single number.  What is
typed then cannot reach this number any more, since the operator stands between, and the number is
read as the result it is the text of.  So the equals key gives the value of a tree that begins with
the result, whatever expression the result came from.
-/

namespace PocketCalc

open Numeral (Canonical)

theorem Expression.ne_nil_of_tokens {e : Expression} {t : Token} {op : Operator} {ts : List Token}
    (h : e.tokens = t :: .operator op :: ts) : ts ≠ [] := by
  rintro rfl
  refine e.getLast?_tokens_ne_operator op ?_
  rw [h]
  rfl

theorem Token.not_percents_of_number_operator {text : String} {op : Operator} {ts : List Token}
    (h : ¬ [.percent, .percent] <:+: ts) :
    ¬ [.percent, .percent] <:+: .number text :: .operator op :: ts := by
  intro hinfix
  rcases List.infix_cons_iff.1 hinfix with ⟨_, hprefix⟩ | hinfix
  · cases hprefix
  · rcases List.infix_cons_iff.1 hinfix with ⟨_, hprefix⟩ | hinfix
    · cases hprefix
    · exact h hinfix

namespace Buffer

/-- The buffer that goes on from a number of the given text. -/
def continued (text : String) (op : Operator) (ts : List Token) : Buffer :=
  ⟨.number text :: .operator op :: ts⟩

theorem render_continued (text : String) (op : Operator) {ts : List Token} (hts : ts ≠ []) :
    (continued text op ts).render =
      text ++ String.singleton op.glyph ++ (Buffer.mk ts).render := by
  have htail : ¬ (Buffer.mk ts).isEmpty := fun h => hts (List.isEmpty_iff.1 h)
  have hall : ¬ (continued text op ts).isEmpty := Bool.false_ne_true
  rw [← String.toList_inj, toList_render hall, String.toList_append, String.toList_append,
    toList_render htail, String.toList_singleton, List.append_assoc]
  rfl

end Buffer

namespace Calculator

variable {c : Calculator} {x : Float} {op : Operator} {s : String} {ts : List Token}
  {e : Expression}

/-- What can be typed after a zero can be typed after a result, which may have a sign. -/
theorem entered_continued {mode : ParenMode} (hx : x.isFinite)
    (htokens : e.tokens = .number s :: .operator op :: ts)
    (hnumbers : ∀ text, .number text ∈ ts → Canonical text.toList)
    (hpercents : ¬ [.percent, .percent] <:+: ts)
    (hparens : mode = .balanced ∨ e.nesting ≤ 1) :
    (Buffer.continued (Number.format x) op ts).Entered mode := by
  have hzero : (e.withFirst "0").tokens = .number "0" :: .operator op :: ts := by
    rw [Expression.tokens_withFirst (s := s) (by rw [htokens]; rfl), htokens]
    rfl
  have htyped : (e.withFirst "0").Typable := by
    refine ⟨fun text hmem => ?_, hzero ▸ Token.not_percents_of_number_operator hpercents⟩
    rw [hzero] at hmem
    rcases List.mem_cons.1 hmem with hfirst | hmem
    · cases hfirst
      exact .digit (by decide)
    · rcases List.mem_cons.1 hmem with hoperator | hmem
      · cases hoperator
      · exact hnumbers text hmem
  have hgroups : (e.withFirst "0").GroupsFit mode [] :=
    hparens.imp_right fun h => .inr ⟨e.nesting_withFirst "0" ▸ h, nofun⟩
  have hentered : (Buffer.mk (e.withFirst "0").tokens).Entered mode :=
    Expression.entered_append_tokens _ .empty rfl htyped hgroups
  rw [hzero] at hentered
  exact hentered.retype_first (Number.canonical_format hx)

/-- The calculator once tokens were typed after its result `x`. -/
def continuing (c : Calculator) (x : Float) (op : Operator) (ts : List Token)
    (live : Option Float) : Calculator :=
  { c.restart with buffer := .continued (Number.format x) op ts, liveValue := live }

theorem run_continuing (hmode : c.mode = .resultShown) (hlast : c.lastResult = some x)
    (hentered : (Buffer.continued (Number.format x) op ts).Entered c.config.parenMode)
    (hnumbers : ∀ text, .number text ∈ ts → Canonical text.toList)
    {r : List (Moments × Action)} (hr : Types r (.operator op :: ts.flatMap Token.keys)) :
    ∃ live, c.run r = c.continuing x op ts live := by
  obtain _ | @⟨⟨times, a⟩, _, r, _, hstep, hrest⟩ := hr
  have hact : c.act times a = c.continuing x op [] (some x) := by
    rw [act_of_presses hstep, next_press]
    show (c.pressOperator op).next = _
    rw [pressOperator_resultShown op hmode hlast]
    rfl
  rw [run, hact]
  exact run_of_keyed hrest rfl
    (hentered.keyed_append [.number (Number.format x), .operator op] hnumbers)

/-- What the equals key records of an expression that is being typed and has a value. -/
theorem history_equals (now : Timestamp) {v : Float} (hmode : c.mode = .entering)
    (hraw : c.rawValue = .ok v) :
    (c.press now .equals).next.history = c.history.record (c.entry now (c.shown v)) := by
  show (c.pressEquals now).next.history = _
  rw [pressEquals_entering now hmode (buffer_ne_of_rawValue hraw) (value_of_rawValue hraw)]

/-- The keys of an operator and of what can follow it, pressed while a result is shown, put them
after the result as one number.  The equals key then gives the rounded value of the tree that these
tokens make with any literal of the result in front, or the error it comes to.  A value is recorded
with the text of the result, the operator and what was typed after it. -/
theorem operator_continues_result (h : InUse c) (hmode : c.mode = .resultShown)
    (hlast : c.lastResult = some x)
    (hread : Literal.read? s.toList = some (Number.plainZero x))
    (hs : Derives .expression (.number s :: .operator op :: ts) e)
    (hnesting : e.nesting ≤ Evaluator.maxNesting)
    (hnumbers : ∀ text, .number text ∈ ts → Canonical text.toList)
    (hpercents : ¬ [.percent, .percent] <:+: ts)
    (hparens : c.config.parenMode = .balanced ∨ e.nesting ≤ 1)
    {r : List (Moments × Action)} (hr : Types r (.operator op :: ts.flatMap Token.keys)) :
    (c.run r).buffer.tokens = .number (Number.format x) :: .operator op :: ts ∧
    (∀ now, ((c.run r).press now .equals).outcome =
      match e.value c.config.overflowLimit with
      | .ok v => .evaluated (Number.round v c.config.decimalPlaces.toNat)
      | .error err => .failed err) ∧
    ∀ now v, e.value c.config.overflowLimit = .ok v →
      let entry : HistoryEntry :=
        ⟨Number.format x ++ String.singleton op.glyph ++ (Buffer.mk ts).render,
          Number.round v c.config.decimalPlaces.toNat, now⟩
      ((c.run r).press now .equals).next.history = c.history.record entry ∧
        ((c.run r).press now .equals).next.history.last? = some entry := by
  obtain ⟨hwellFormed, htokens⟩ := derives_iff.1 hs
  have hx : x.isFinite := (tidy_of_inUse h).lastResult x hlast
  have hentered : (Buffer.continued (Number.format x) op ts).Entered c.config.parenMode :=
    entered_continued hx htokens hnumbers hpercents hparens
  obtain ⟨live, hrun⟩ := run_continuing hmode hlast hentered hnumbers hr
  rw [hrun]
  have hraw : (c.continuing x op ts live).rawValue = e.value c.config.overflowLimit := by
    rw [← evaluatorLimit_of_inUse h]
    exact Expression.evaluate_withFirst hwellFormed hnesting htokens
      ((Number.read?_format_of_isFinite hx).trans hread.symm)
  refine ⟨rfl, fun now => ?_, fun now v hv => ?_⟩
  · rw [outcome_equals (c := c.continuing x op ts live) rfl Bool.false_ne_true, hraw]
    rfl
  · intro entry
    have hentry : (c.continuing x op ts live).entry now ((c.continuing x op ts live).shown v) =
        entry :=
      congrArg (HistoryEntry.mk · _ now)
        (Buffer.render_continued (Number.format x) op (Expression.ne_nil_of_tokens htokens))
    rw [history_equals now rfl (hraw.trans hv), hentry]
    exact ⟨rfl, (bounded_of_inUse h).last?_record entry⟩

/-- The difference `3-5` goes on with `×(1+0.5)%` as the number minus two. -/
theorem operator_continues_result_negative :
    let now : Timestamp := ⟨2024, 1, 2, 3, 4, 5, by decide⟩
    let c := new.act now (.pressAll [.digit 3, .operator .sub, .digit 5, .equals])
    let ts : List Token := [.leftParen, .number "1", .operator .add, .number "0.5", .rightParen,
      .percent]
    let r : List (Moments × Action) :=
      (Key.operator .mul :: ts.flatMap Token.keys).map fun key => (now, Action.press key)
    InUse c ∧ c.mode = .resultShown ∧ c.history.lines = ["3-5 = -2"] ∧
      (c.run r).buffer.tokens = .number "-2" :: .operator .mul :: ts ∧
      ((c.run r).press now .equals).outcome = .evaluated (-0.03) ∧
      ((c.run r).press now .equals).next.history.last? = some ⟨"-2×(1+0.5)%", -0.03, now⟩ := by
  intro now c ts r
  have hc : InUse c := inUse_new.act now _
  have hmode : c.mode = .resultShown := by decide +kernel
  have hlast : c.lastResult = some (-2) := by decide +kernel
  have hread : Literal.read? "-2.0".toList = some (Number.plainZero (-2)) := by decide +kernel
  have hsum := Derives.sum (.inl rfl : Operator.add = .add ∨ _)
    (Derives.primary (.number "1")).loosen (.factor (.primary (.number "0.5")))
  have hs : Derives .expression (.number "-2.0" :: .operator .mul :: ts) _ :=
    .term (.product (.inl rfl) (.factor (.primary (.number "-2.0")))
      (.percent (.primary hsum.group)))
  have hnumbers : ∀ text, .number text ∈ ts → Canonical text.toList := by
    intro text htext
    have hmem : text ∈ ["1", "0.5"] := by simpa [ts] using htext
    have hzero : Canonical ['0'] := .digit (by decide)
    rcases List.mem_cons.1 hmem with rfl | hmem
    · exact .digit (by decide)
    · obtain rfl := List.mem_singleton.1 hmem
      exact (hzero.append_point (by decide)).append_digit (by decide) (by decide)
  have hr : Types r (.operator .mul :: ts.flatMap Token.keys) :=
    List.forall₂_map_left_iff.2 (List.forall₂_same.2 fun key _ => .inl rfl)
  obtain ⟨htokens, houtcome, hrecorded⟩ := operator_continues_result hc hmode hlast hread hs
    (by decide) hnumbers (by decide) (.inr (by decide)) hr
  have hformat : Number.format (-2) = "-2" := by decide +kernel
  rw [hformat] at htokens
  refine ⟨hc, hmode, by decide +kernel, htokens, (houtcome now).trans ?_, ?_⟩
  · decide +kernel
  · refine ((hrecorded now (-0.03) (by decide +kernel)).2).trans ?_
    decide +kernel

end Calculator
end PocketCalc
