import PocketCalc.Json.Session
import PocketCalc.Proofs.Json.Moments

/-!
# JSON forms read back

A form is faithful to a value if it is read as that value and needs nothing that a reader of texts
may refuse (`Json.Portable`): no number without a text, no whole number beyond 64 bits, no two fields
of one name and no deep nesting.  Lists and optional values are as faithful as what they hold
(`faithful_list`, `faithful_some`), and so is every record and every constructor.  Only a number
that is not finite has no faithful form.
-/

namespace PocketCalc

/-- A JSON value that is nested no deeper than `depth`, with finite numbers, whole numbers of 64
bits without a sign, and no two fields of one name in an object. -/
inductive Json.Portable : Nat → Json → Prop
  | null {depth : Nat} : Portable depth .null
  | bool {depth : Nat} (b : Bool) : Portable depth (.bool b)
  | integer {depth n : Nat} (hn : n < UInt64.size) : Portable depth (.integer n)
  | real {depth : Nat} {x : Float} (hx : x.isFinite) : Portable depth (.real x)
  | string {depth : Nat} (s : String) : Portable depth (.string s)
  | array {depth : Nat} {items : List Json} (h : ∀ j ∈ items, Portable depth j) :
    Portable (depth + 1) (.array items)
  | object {depth : Nat} {fields : List (String × Json)} (h : ∀ p ∈ fields, Portable depth p.2)
    (hnames : (fields.map Prod.fst).Nodup) : Portable (depth + 1) (.object fields)

namespace Json

variable {depth : Nat} {name : String} {j : Json}

theorem portable_object_nil : (object []).Portable (depth + 1) :=
  .object (List.forall_mem_nil _) List.nodup_nil

/-- An object with one more field, of a name that it does not have yet. -/
theorem Portable.field {fields : List (String × Json)} (h : j.Portable depth)
    (hfields : (Json.object fields).Portable (depth + 1))
    (hname : name ∉ fields.map Prod.fst := by simp) :
    (Json.object ((name, j) :: fields)).Portable (depth + 1) := by
  cases hfields with
  | object hall hnames =>
    exact .object (List.forall_mem_cons.2 ⟨h, hall⟩) (List.nodup_cons.2 ⟨hname, hnames⟩)

theorem portable_variant (h : j.Portable depth) : (variant name j).Portable (depth + 1) :=
  h.field portable_object_nil

end Json

/-! ## The numbers of a value -/

def HistoryEntry.floats (e : HistoryEntry) : List Float := [e.result]

def History.floats (h : History) : List Float := h.entries.flatMap HistoryEntry.floats

def State.floats (s : State) : List Float :=
  s.liveValue.toList ++ s.lastResult.toList ++ s.history.floats

def Config.floats (c : Config) : List Float := [c.overflowLimit]

namespace JsonForm

/-- A value whose form is read back and is nested no deeper than `depth`. -/
structure Faithful {α : Type} [JsonForm α] (depth : Nat) (x : α) : Prop where
  portable : (encode x).Portable depth
  decode?_encode : decode? (encode x) = some x

variable {depth : Nat}

/-! ## Plain values -/

theorem faithful_bool (b : Bool) : Faithful depth b := ⟨.bool b, rfl⟩

theorem faithful_string (s : String) : Faithful depth s := ⟨.string s, rfl⟩

theorem natural?_toNat {n bound : Nat} (h : n < bound) :
    (Json.integer n).natural? bound = some n := if_pos h

theorem faithful_uint8 (n : UInt8) : Faithful depth n where
  portable := .integer (Nat.lt_trans n.toNat_lt (by decide))
  decode?_encode := by
    show ((Json.integer n.toNat).natural? UInt8.size).map UInt8.ofNat = some n
    rw [natural?_toNat n.toNat_lt, Option.map_some, UInt8.ofNat_toNat]

theorem faithful_uint32 (n : UInt32) : Faithful depth n where
  portable := .integer (Nat.lt_trans n.toNat_lt (by decide))
  decode?_encode := by
    show ((Json.integer n.toNat).natural? UInt32.size).map UInt32.ofNat = some n
    rw [natural?_toNat n.toNat_lt, Option.map_some, UInt32.ofNat_toNat]

theorem faithful_uint64 (n : UInt64) : Faithful depth n where
  portable := .integer n.toNat_lt
  decode?_encode := by
    show ((Json.integer n.toNat).natural? UInt64.size).map UInt64.ofNat = some n
    rw [natural?_toNat n.toNat_lt, Option.map_some, UInt64.ofNat_toNat]

theorem encode_float {x : Float} (hx : x.isFinite) : encode x = .real x := if_pos hx

theorem faithful_float {x : Float} (hx : x.isFinite) : Faithful depth x where
  portable := by
    rw [encode_float hx]
    exact .real hx
  decode?_encode := by
    rw [encode_float hx]
    rfl

theorem faithful_timestamp (t : Timestamp) : Faithful depth t where
  portable := .string _
  decode?_encode := by
    show Timestamp.ofChars? (String.ofList (t.chars ++ ['Z'])).toList = some t
    rw [String.toList_ofList, t.ofChars?_chars]

/-! ## Lists and optional values -/

section
variable {α : Type} [JsonForm α]

theorem mapM_decode?_encode {xs : List α} (h : ∀ x ∈ xs, Faithful depth x) :
    (xs.map encode).mapM decode? = some xs := by
  induction xs with
  | nil => rfl
  | cons x xs ih =>
    obtain ⟨hx, hxs⟩ := List.forall_mem_cons.1 h
    rw [List.map_cons, List.mapM_cons, hx.decode?_encode, ih hxs]
    rfl

theorem faithful_list {xs : List α} (h : ∀ x ∈ xs, Faithful depth x) :
    Faithful (depth + 1) xs where
  portable := .array (List.forall_mem_map.2 fun x hx => (h x hx).portable)
  decode?_encode := mapM_decode?_encode h

theorem faithful_none : Faithful depth (none : Option α) := ⟨.null, rfl⟩

/-- What has a form of its own can be told from what is not there. -/
theorem faithful_some {x : α} (h : Faithful depth x) (hnull : encode x ≠ .null) :
    Faithful depth (some x) where
  portable := h.portable
  decode?_encode := by
    have hread : ∀ {j : Json}, j ≠ .null → (decode? j : Option (Option α)) = (decode? j).map some :=
      fun {j} hj => by
        cases j with
        | null => exact absurd rfl hj
        | _ => rfl
    show decode? (encode x) = _
    rw [hread hnull, h.decode?_encode]
    rfl

theorem faithful_option {o : Option α} (h : ∀ x ∈ o, Faithful depth x ∧ encode x ≠ .null) :
    Faithful depth o := by
  cases o with
  | none => exact faithful_none
  | some x => exact faithful_some (h x rfl).1 (h x rfl).2

end

theorem faithful_optionFloat {o : Option Float} (h : ∀ x ∈ o.toList, x.isFinite) :
    Faithful depth o :=
  faithful_option fun x hx => by
    have hfinite := h x (Option.mem_toList.2 hx)
    refine ⟨faithful_float hfinite, ?_⟩
    rw [encode_float hfinite]
    exact nofun

theorem faithful_limit (o : Option UInt64) : Faithful depth o :=
  faithful_option fun n _ => ⟨faithful_uint64 n, nofun⟩

/-! ## Constructors -/

theorem faithful_operator (op : Operator) : Faithful depth op where
  portable := .string _
  decode?_encode := by cases op <;> rfl

theorem faithful_parenMode (mode : ParenMode) : Faithful depth mode := by
  cases mode <;> exact ⟨.string _, rfl⟩

theorem faithful_mode (mode : Mode) : Faithful depth mode where
  portable := .string _
  decode?_encode := by cases mode <;> rfl

theorem faithful_evalError (e : EvalError) : Faithful depth e where
  portable := .string _
  decode?_encode := by cases e <;> rfl

theorem faithful_error (o : Option EvalError) : Faithful depth o :=
  faithful_option fun e _ => ⟨faithful_evalError e, nofun⟩

theorem faithful_token (t : Token) : Faithful (depth + 1) t := by
  cases t with
  | number text => exact ⟨Json.portable_variant (.string text), rfl⟩
  | operator op =>
    have hop : Faithful depth op := faithful_operator op
    refine ⟨Json.portable_variant hop.portable, ?_⟩
    show (decode? (encode op)).map Token.operator = _
    rw [hop.decode?_encode, Option.map_some]
  | leftParen | rightParen | percent => exact ⟨.string _, rfl⟩

theorem faithful_key (key : Key) : Faithful (depth + 1) key := by
  cases key with
  | digit n =>
    have hn : Faithful depth n := faithful_uint8 n
    refine ⟨Json.portable_variant hn.portable, ?_⟩
    show (decode? (encode n)).map Key.digit = _
    rw [hn.decode?_encode, Option.map_some]
  | operator op =>
    have hop : Faithful depth op := faithful_operator op
    refine ⟨Json.portable_variant hop.portable, ?_⟩
    show (decode? (encode op)).map Key.operator = _
    rw [hop.decode?_encode, Option.map_some]
  | selectHistory index =>
    have hindex : Faithful depth index := faithful_uint64 index
    refine ⟨Json.portable_variant hindex.portable, ?_⟩
    show (decode? (encode index)).map Key.selectHistory = _
    rw [hindex.decode?_encode, Option.map_some]
  | _ => exact ⟨.string _, rfl⟩

/-! ## Records -/

theorem faithful_buffer (b : Buffer) : Faithful (depth + 3) b := by
  have htokens : Faithful (depth + 2) b.tokens := faithful_list fun t _ => faithful_token t
  refine ⟨htokens.portable.field Json.portable_object_nil, ?_⟩
  -- The names of the fields are known, so looking them up is a computation.
  have hread : (decode? (encode b) : Option Buffer) =
      (do return ⟨← decode? (encode b.tokens)⟩) := rfl
  rw [hread, htokens.decode?_encode]
  rfl

theorem faithful_entry {e : HistoryEntry} (h : ∀ x ∈ e.floats, x.isFinite) :
    Faithful (depth + 1) e := by
  have hexpression : Faithful depth e.expression := faithful_string e.expression
  have hresult : Faithful depth e.result := faithful_float (h e.result List.mem_cons_self)
  have hrecordedAt : Faithful depth e.recordedAt := faithful_timestamp e.recordedAt
  refine ⟨hexpression.portable.field (hresult.portable.field (hrecordedAt.portable.field
    Json.portable_object_nil)), ?_⟩
  have hread : (decode? (encode e) : Option HistoryEntry) =
      (do return ⟨← decode? (encode e.expression), ← decode? (encode e.result),
        ← decode? (encode e.recordedAt)⟩) := rfl
  rw [hread, hexpression.decode?_encode, hresult.decode?_encode, hrecordedAt.decode?_encode]
  rfl

theorem faithful_history {h : History} (hfloats : ∀ x ∈ h.floats, x.isFinite) :
    Faithful (depth + 3) h := by
  have hentries : Faithful (depth + 2) h.entries := faithful_list fun e he =>
    faithful_entry fun x hx => hfloats x (List.mem_flatMap.2 ⟨e, he, hx⟩)
  have hcapacity : Faithful (depth + 2) h.capacity := faithful_limit h.capacity
  refine ⟨hentries.portable.field (hcapacity.portable.field Json.portable_object_nil), ?_⟩
  have hread : (decode? (encode h) : Option History) =
      (do return ⟨← decode? (encode h.entries), ← decode? (encode h.capacity)⟩) := rfl
  rw [hread, hentries.decode?_encode, hcapacity.decode?_encode]
  rfl

theorem faithful_view (v : View) : Faithful (depth + 2) v := by
  have hexpression : Faithful (depth + 1) v.expressionText := faithful_string v.expressionText
  have hdisplay : Faithful (depth + 1) v.displayText := faithful_string v.displayText
  have hisError : Faithful (depth + 1) v.isError := faithful_bool v.isError
  have hmode : Faithful (depth + 1) v.mode := faithful_mode v.mode
  have hopen : Faithful (depth + 1) v.historyOpen := faithful_bool v.historyOpen
  have hentries : Faithful (depth + 1) v.historyEntries :=
    faithful_list fun line _ => faithful_string line
  refine ⟨hexpression.portable.field (hdisplay.portable.field (hisError.portable.field
    (hmode.portable.field (hopen.portable.field (hentries.portable.field
      Json.portable_object_nil))))), ?_⟩
  have hread : (decode? (encode v) : Option View) =
      (do return ⟨← decode? (encode v.expressionText), ← decode? (encode v.displayText),
        ← decode? (encode v.isError), ← decode? (encode v.mode),
        ← decode? (encode v.historyOpen), ← decode? (encode v.historyEntries)⟩) := rfl
  rw [hread, hexpression.decode?_encode, hdisplay.decode?_encode, hisError.decode?_encode,
    hmode.decode?_encode, hopen.decode?_encode, hentries.decode?_encode]
  rfl

theorem faithful_config {c : Config} (h : ∀ x ∈ c.floats, x.isFinite) :
    Faithful (depth + 1) c := by
  have hplaces : Faithful depth c.decimalPlaces := faithful_uint32 c.decimalPlaces
  have hlimit : Faithful depth c.historyLimit := faithful_limit c.historyLimit
  have hparen : Faithful depth c.parenMode := faithful_parenMode c.parenMode
  have hoverflow : Faithful depth c.overflowLimit :=
    faithful_float (h c.overflowLimit List.mem_cons_self)
  refine ⟨hplaces.portable.field (hlimit.portable.field (hparen.portable.field
    (hoverflow.portable.field Json.portable_object_nil))), ?_⟩
  have hread : (decode? (encode c) : Option Config) =
      (do return ⟨← decode? (encode c.decimalPlaces), ← decode? (encode c.historyLimit),
        ← decode? (encode c.parenMode), ← decode? (encode c.overflowLimit)⟩) := rfl
  rw [hread, hplaces.decode?_encode, hlimit.decode?_encode, hparen.decode?_encode,
    hoverflow.decode?_encode]
  rfl

theorem faithful_state {s : State} (h : ∀ x ∈ s.floats, x.isFinite) :
    Faithful (depth + 4) s := by
  obtain ⟨hnumbers, hresults⟩ := List.forall_mem_append.1 h
  obtain ⟨hlive, hlast⟩ := List.forall_mem_append.1 hnumbers
  have hbuffer : Faithful (depth + 3) s.buffer := faithful_buffer s.buffer
  have hliveValue : Faithful (depth + 3) s.liveValue := faithful_optionFloat hlive
  have hmode : Faithful (depth + 3) s.mode := faithful_mode s.mode
  have herror : Faithful (depth + 3) s.error := faithful_error s.error
  have hlastResult : Faithful (depth + 3) s.lastResult := faithful_optionFloat hlast
  have hhistory : Faithful (depth + 3) s.history := faithful_history hresults
  have hopen : Faithful (depth + 3) s.historyOpen := faithful_bool s.historyOpen
  refine ⟨hbuffer.portable.field (hliveValue.portable.field (hmode.portable.field
    (herror.portable.field (hlastResult.portable.field (hhistory.portable.field
      (hopen.portable.field Json.portable_object_nil)))))), ?_⟩
  have hread : (decode? (encode s) : Option State) =
      (do return ⟨← decode? (encode s.buffer), ← decode? (encode s.liveValue),
        ← decode? (encode s.mode), ← decode? (encode s.error), ← decode? (encode s.lastResult),
        ← decode? (encode s.history), ← decode? (encode s.historyOpen)⟩) := rfl
  rw [hread, hbuffer.decode?_encode, hliveValue.decode?_encode, hmode.decode?_encode,
    herror.decode?_encode, hlastResult.decode?_encode, hhistory.decode?_encode,
    hopen.decode?_encode]
  rfl

end JsonForm
end PocketCalc
