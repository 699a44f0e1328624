import PocketCalc.Proofs.Buffer.Keying
import PocketCalc.Proofs.Buffer.Sentence
import PocketCalc.Proofs.Session.Coherence

/-!
# Typing a sentence

While an expression is being typed, a run of key presses does to the calculator what the keys do
to its buffer, and changes nothing else but the live value.  So the keys of a sentence, pressed
on a calculator that has not been used, leave exactly its tokens in the buffer, and the equals
key then gives the rounded value of the sentence or the error that it comes to.
-/

namespace PocketCalc

open Numeral (Canonical)

/-- The action presses the key, by itself or through one of its symbols. -/
def Action.Presses (a : Action) (key : Key) : Prop :=
  a = .press key ∨ ∃ symbol, a = .pressSymbol symbol ∧ Key.ofSymbol symbol = .ok key

namespace Calculator

variable {c : Calculator} {now : Timestamp}

/-- The actions of the run press the keys, one each. -/
def Types (r : List (Moments × Action)) (keys : List Key) : Prop :=
  List.Forall₂ (fun step key => step.2.Presses key) r keys

theorem act_of_presses {times : Moments} {a : Action} {key : Key} (h : a.Presses key) :
    c.act times a = (c.press times.first key).next := by
  rcases h with rfl | ⟨symbol, rfl, hkey⟩
  · rfl
  · exact act_pressSymbol_ok c times hkey

theorem eq_ok_of_toOption {ε α : Type} {r : Except ε α} {x : α} (h : r.toOption = some x) :
    r = .ok x := by
  cases r with
  | ok y => exact congrArg Except.ok (Option.some.inj h)
  | error e => cases h

theorem pressOperator_of_keyed {op : Operator} {b : Buffer} (hmode : c.mode = .entering)
    (hb : c.buffer.keyed? c.config.parenMode (.operator op) = some b) :
    c.pressOperator op = c.edit b := by
  have happend := eq_ok_of_toOption hb
  by_cases hempty : c.buffer.isEmpty
  · rw [if_pos hempty, append_operator_zero hempty op] at happend
    rw [pressOperator_first op hmode hempty, Except.ok.inj happend]
  · rw [if_neg hempty] at happend
    rw [pressOperator_typing op hmode hempty, happend]

theorem press_of_keyed {key : Key} {b : Buffer} (hmode : c.mode = .entering)
    (hb : c.buffer.keyed? c.config.parenMode key = some b) :
    (c.press now key).next = (c.edit b).next := by
  rw [next_press]
  cases key with
  | digit n =>
    obtain ⟨d, hd, rfl⟩ := Option.map_eq_some_iff.1 hb
    simp only [handle, hd, pressDigit, entering_of_entering hmode]
  | decimalPoint =>
    obtain rfl := Option.some.inj hb
    simp only [handle, pressPoint, entering_of_entering hmode]
  | operator op =>
    rw [handle, pressOperator_of_keyed hmode hb]
  | paren =>
    obtain rfl := Option.some.inj hb
    simp only [handle, pressParen, hmode, entering_of_entering hmode]
  | percent =>
    simp only [handle, pressPercent, hmode, eq_ok_of_toOption hb]
  | backspace =>
    obtain rfl := Option.some.inj hb
    simp only [handle, pressBackspace, hmode]
  | clear | equals | openHistory | closeHistory | selectHistory => cases hb

theorem run_of_keyed {keys : List Key} {b : Buffer} {r : List (Moments × Action)}
    (hr : Types r keys) (hmode : c.mode = .entering)
    (hb : keys.foldlM (Buffer.keyed? c.config.parenMode) c.buffer = some b) :
    ∃ live, c.run r = { c with buffer := b, liveValue := live } := by
  induction hr generalizing c with
  | nil =>
    obtain rfl := Option.some.inj hb
    exact ⟨c.liveValue, rfl⟩
  | @cons step key r keys hstep _ ih =>
    obtain ⟨times, a⟩ := step
    rw [List.foldlM_cons] at hb
    obtain ⟨b', hkey, hkeys⟩ := Option.bind_eq_some_iff.1 hb
    obtain ⟨live, hnext⟩ := exists_next_edit c b'
    rw [run, act_of_presses hstep, press_of_keyed hmode hkey, hnext]
    exact ih hmode hkeys

theorem run_types_buffer {config : Config} {b : Buffer} {r : List (Moments × Action)}
    (hb : b.Entered config.parenMode)
    (hnumbers : ∀ text, .number text ∈ b.tokens → Canonical text.toList)
    (hr : Types r (b.tokens.flatMap Token.keys)) :
    ∃ live, (ofConfig config).run r = { ofConfig config with buffer := b, liveValue := live } :=
  run_of_keyed hr rfl (hb.keyed hnumbers)

/-- What the equals key makes of an expression that is being typed. -/
theorem outcome_equals (hmode : c.mode = .entering) (hb : ¬ c.buffer.isEmpty) :
    (c.press now .equals).outcome =
      match c.rawValue with
      | .ok v => .evaluated (c.shown v)
      | .error e => .failed e := by
  cases hraw : c.rawValue with
  | ok v => exact outcome_press_equals hmode hraw now
  | error e =>
    show (c.pressEquals now).outcome = .failed e
    have hne : c.mode ≠ .error := by
      rw [hmode]
      decide
    rw [pressEquals_fails now hne (fun _ => hb) (value_eq_error.2 hraw)]
    rfl

/-- The keys of a sentence type exactly its tokens, if its numbers are canonical numerals, no
percent sign follows another one and, where the parenthesis key toggles, groups do not nest.
The equals key then gives the rounded value of the sentence, or its error. -/
theorem run_types_sentence {config : Config} {first : Calculator}
    (hbuild : build config = .ok first) {s : List Token} {e : Expression}
    (hs : Derives .expression s e)
    (hnumbers : ∀ text, .number text ∈ s → Canonical text.toList)
    (hpercents : ¬ [.percent, .percent] <:+: s)
    (hparens : config.parenMode = .balanced ∨ e.nesting ≤ 1)
    {r : List (Moments × Action)} (hr : Types r (s.flatMap Token.keys)) :
    (first.run r).buffer.tokens = s ∧
    ∀ now, ((first.run r).press now .equals).outcome =
      match Evaluator.evaluate config.overflowLimit s with
      | .ok v => .evaluated (Number.round v config.decimalPlaces.toNat)
      | .error err => .failed err := by
  obtain ⟨-, rfl⟩ := build_eq_ok.1 hbuild
  obtain ⟨-, rfl⟩ := derives_iff.1 hs
  have hgroups : e.GroupsFit config.parenMode [] :=
    hparens.imp_right fun h => .inr ⟨h, nofun⟩
  have hentered : (Buffer.mk e.tokens).Entered config.parenMode :=
    e.entered_append_tokens .empty rfl ⟨hnumbers, hpercents⟩ hgroups
  obtain ⟨live, hrun⟩ := run_types_buffer hentered hnumbers hr
  rw [hrun]
  refine ⟨rfl, fun now => outcome_equals rfl ?_⟩
  exact fun h => e.tokens_ne_nil (List.isEmpty_iff.1 h)

/-- The keys of `((10-0.5)×2)%`, where groups may nest. -/
theorem run_types_sentence_nested :
    let now : Timestamp := ⟨2024, 1, 2, 3, 4, 5, by decide⟩
    let config : Config := { parenMode := .balanced }
    let s : List Token := [.leftParen, .leftParen, .number "10", .operator .sub, .number "0.5",
      .rightParen, .operator .mul, .number "2", .rightParen, .percent]
    let r : List (Moments × Action) :=
      (s.flatMap Token.keys).map fun key => (now, Action.press key)
    build config = .ok (ofConfig config) ∧ ((ofConfig config).run r).buffer.tokens = s ∧
      (((ofConfig config).run r).press now .equals).outcome = .evaluated 0.19 := by
  intro now config s r
  have hbuild : build config = .ok (ofConfig config) := build_eq_ok.2 ⟨by decide +kernel, rfl⟩
  have hten : Derives .expression [.number "10"] (.number "10") :=
    .term (.factor (.primary (.number "10")))
  have hdifference := Derives.sum (.inr rfl : Operator.sub = .add ∨ _) hten
    (.factor (.primary (.number "0.5")))
  have hproduct := Derives.product (.inl rfl : Operator.mul = .mul ∨ _)
    (.factor (.primary hdifference.group)) (.primary (.number "2"))
  have hs : Derives .expression s _ :=
    .term (.factor (.percent (.primary hproduct.term.group)))
  have hnumbers : ∀ text, .number text ∈ s → Canonical text.toList := by
    intro text htext
    have hmem : text ∈ ["10", "0.5", "2"] := by simpa [s] using htext
    have hzero : Canonical ['0'] := .digit (by decide)
    have hone : Canonical ['1'] := .digit (by decide)
    rcases List.mem_cons.1 hmem with rfl | hmem
    · exact hone.append_digit (by decide) (by decide)
    rcases List.mem_cons.1 hmem with rfl | hmem
    · exact (hzero.append_point (by decide)).append_digit (by decide) (by decide)
    · obtain rfl := List.mem_singleton.1 hmem
      exact .digit (by decide)
  have hr : Types r (s.flatMap Token.keys) :=
    List.forall₂_map_left_iff.2 (List.forall₂_same.2 fun key _ => .inl rfl)
  obtain ⟨htokens, hequals⟩ :=
    run_types_sentence hbuild hs hnumbers (by decide) (.inl rfl) hr
  refine ⟨hbuild, htokens, (hequals now).trans ?_⟩
  decide +kernel

end Calculator
end PocketCalc
