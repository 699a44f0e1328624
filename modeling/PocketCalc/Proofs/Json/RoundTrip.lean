import PocketCalc.Proofs.Json.Reader
import PocketCalc.Proofs.Session.Display

/-!
# Sessions read back

What is written as JSON and read again is what it was, with any reader of texts that gives back the
kind of values that forms are (`Json.GivenBackBy`).  A calculator in use has only finite numbers in
its state, so a session can be put down and taken up again at any moment (`forms_round_trip`).
-/

namespace PocketCalc

/-- The reader gives back from its text every value that is nested no deeper than the state of a
session, with finite numbers, whole numbers of 64 bits and no two fields of one name. -/
def Json.GivenBackBy (read? : String → Option Json) : Prop :=
  ∀ j : Json, j.Portable 4 → read? j.text = some j

theorem Calculator.isFinite_of_mem_floats {c : Calculator} (h : InUse c) :
    ∀ x ∈ c.toState.floats, x.isFinite := by
  have htidy := tidy_of_inUse h
  intro x hx
  rcases List.mem_append.1 hx with hx | hx
  · rcases List.mem_append.1 hx with hx | hx
    · exact finite_liveValue h (Option.mem_toList.1 hx)
    · exact htidy.lastResult x (Option.mem_toList.1 hx)
  · obtain ⟨e, he, hx⟩ := List.mem_flatMap.1 hx
    obtain ⟨b, hb⟩ := htidy.history e he
    rw [List.mem_singleton.1 hx]
    exact finite_of_writable hb.writable

namespace JsonForm

/-- A value is given back by its form, and by the text of its form. -/
structure RoundTrips {α : Type} [JsonForm α] (read? : String → Option Json) (x : α) : Prop where
  value : decode? (encode x) = some x
  text : (read? (encode x).text).bind decode? = some x

theorem Faithful.roundTrips {α : Type} [JsonForm α] {x : α} {read? : String → Option Json}
    (h : Faithful 4 x) (hread : Json.GivenBackBy read?) : RoundTrips read? x where
  value := h.decode?_encode
  text := by
    rw [hread _ h.portable, Option.bind_some, h.decode?_encode]

/-- Everything that a session is made of is given back by its JSON form, and so is the state of
every calculator in use. -/
theorem forms_round_trip {read? : String → Option Json} (hread : Json.GivenBackBy read?) :
    (∀ s : State, (∀ x ∈ s.floats, x.isFinite) → RoundTrips read? s) ∧
    (∀ b : Buffer, RoundTrips read? b) ∧
    (∀ t : Token, RoundTrips read? t) ∧
    (∀ h : History, (∀ x ∈ h.floats, x.isFinite) → RoundTrips read? h) ∧
    (∀ e : HistoryEntry, (∀ x ∈ e.floats, x.isFinite) → RoundTrips read? e) ∧
    (∀ key : Key, RoundTrips read? key) ∧
    (∀ v : View, RoundTrips read? v) ∧
    (∀ c : Config, (∀ x ∈ c.floats, x.isFinite) → RoundTrips read? c) ∧
    ∀ c : Calculator, Calculator.InUse c → RoundTrips read? c.toState := by
  refine ⟨fun s hs => ?state, fun b => ?buffer, fun t => ?token, fun h hh => ?history,
    fun e he => ?entry, fun key => ?key, fun v => ?view, fun c hc => ?config, fun c hc => ?inUse⟩
  case state => exact (faithful_state hs).roundTrips hread
  case buffer => exact (faithful_buffer b).roundTrips hread
  case token => exact (faithful_token t).roundTrips hread
  case history => exact (faithful_history hh).roundTrips hread
  case entry => exact (faithful_entry he).roundTrips hread
  case key => exact (faithful_key key).roundTrips hread
  case view => exact (faithful_view v).roundTrips hread
  case config => exact (faithful_config hc).roundTrips hread
  case inUse => exact (faithful_state (Calculator.isFinite_of_mem_floats hc)).roundTrips hread

/-- A state with control characters, quotes and characters beyond ASCII in its strings. -/
theorem forms_round_trip_escaped :
    let s : State := {
      buffer := ⟨[.number "1\n\"é\\\u0001", .operator .mul, .percent]⟩
      mode := .error
      error := some .overflow
      lastResult := some (-0.1)
      history := {
        entries := [⟨"2×→\t", 1e300, ⟨2024, 1, 2, 3, 4, ⟨60, 250000⟩, by decide⟩⟩]
        capacity := some 3 }
      historyOpen := true }
    Json.GivenBackBy Json.read? ∧ (∀ x ∈ s.floats, x.isFinite) ∧ RoundTrips Json.read? s := by
  intro s
  have hread : Json.GivenBackBy Json.read? := fun _ h => Json.read?_text h.finite
  have hfloats : ∀ x ∈ s.floats, x.isFinite := by decide +kernel
  exact ⟨hread, hfloats, (forms_round_trip hread).1 s hfloats⟩

example : (encode (Token.number "1\n\"é")).text = "\x7b\"Number\":\"1\\n\\\"é\"\x7d" := by
  decide +kernel

end JsonForm
end PocketCalc
