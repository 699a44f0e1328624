import PocketCalc.Proofs.Json.Forms
import PocketCalc.Proofs.Json.Scalars

/-!
# A reader of JSON texts

`Json.read?` reads the compact text of a value.  Lists are read item by item, with any reader of
items (`list?_listed`), and the values in a value with less fuel than the value itself; the length
of its text is enough.  So a value is given back by its text, whatever strings it is made of, if its
numbers are finite (`read?_text`).
-/

namespace PocketCalc

/-- A JSON value whose numbers are all finite. -/
inductive Json.Finite : Json → Prop
  | null : Finite .null
  | bool (b : Bool) : Finite (.bool b)
  | integer (n : Int) : Finite (.integer n)
  | real {x : Float} (hx : x.isFinite) : Finite (.real x)
  | string (s : String) : Finite (.string s)
  | array {items : List Json} (h : ∀ j ∈ items, Finite j) : Finite (.array items)
  | object {fields : List (String × Json)} (h : ∀ p ∈ fields, Finite p.2) : Finite (.object fields)

namespace Json

theorem Portable.finite {depth : Nat} {j : Json} (h : j.Portable depth) : j.Finite := by
  induction h with
  | null => exact .null
  | bool b => exact .bool b
  | integer _ => exact .integer _
  | real hx => exact .real hx
  | string s => exact .string s
  | array _ ih => exact .array ih
  | object _ _ ih => exact .object ih

namespace Reader

variable {rest : List Char}

/-! ## Lists -/

/-- Texts with commas between them. -/
def listed : List (List Char) → List Char
  | [] => []
  | [t] => t
  | t :: ts => t ++ ',' :: listed ts

theorem listed_cons_cons (t t' : List Char) (ts : List (List Char)) :
    listed (t :: t' :: ts) = t ++ ',' :: listed (t' :: ts) := rfl

/-- Reads some items with commas between them and the bracket that closes the list. -/
def items? {α : Type} (close : Char) (item? : List Char → Option (α × List Char)) :
    Nat → List Char → Option (List α × List Char)
  | 0, _ => none
  | fuel + 1, cs =>
    match item? cs with
    | some (x, c :: rest) =>
      if c = ',' then (items? close item? fuel rest).map fun (xs, rest) => (x :: xs, rest)
      else if c = close then some ([x], rest)
      else none
    | _ => none

/-- Reads a list that may be empty. -/
def list? {α : Type} (close : Char) (item? : List Char → Option (α × List Char)) (fuel : Nat)
    (cs : List Char) : Option (List α × List Char) :=
  (items? close item? fuel cs).or (if cs.head? = some close then some ([], cs.tail) else none)

section
variable {α : Type} {close : Char} {item? : List Char → Option (α × List Char)}
  {text : α → List Char}

theorem length_le_listed (ts : List (List Char)) : ts.length ≤ (listed ts).length + 1 := by
  induction ts with
  | nil => exact Nat.zero_le _
  | cons t ts ih =>
    cases ts with
    | nil => exact Nat.le_add_left 1 _
    | cons t' ts =>
      rw [listed_cons_cons, List.length_append, List.length_cons, List.length_cons (a := ',')]
      omega

theorem length_mem_le_listed {t : List Char} {ts : List (List Char)} (ht : t ∈ ts) :
    t.length ≤ (listed ts).length := by
  induction ts with
  | nil => cases ht
  | cons u ts ih =>
    cases ts with
    | nil =>
      rw [List.mem_singleton.1 ht]
      exact Nat.le_refl _
    | cons u' ts =>
      rw [listed_cons_cons, List.length_append, List.length_cons (a := ',')]
      rcases List.mem_cons.1 ht with rfl | ht
      · omega
      · have := ih ht
        omega

theorem items?_listed (hclose : close ≠ ',') {xs : List α} (hne : xs ≠ [])
    (hread : ∀ x ∈ xs, ∀ c rest, c = ',' ∨ c = close →
      item? (text x ++ c :: rest) = some (x, c :: rest)) {fuel : Nat} (hfuel : xs.length ≤ fuel) :
    items? close item? fuel (listed (xs.map text) ++ close :: rest) = some (xs, rest) := by
  induction xs generalizing fuel with
  | nil => exact absurd rfl hne
  | cons x xs ih =>
    obtain ⟨fuel, rfl⟩ := Nat.exists_eq_add_one_of_ne_zero (Nat.ne_zero_of_lt hfuel)
    obtain ⟨hx, hxs⟩ := List.forall_mem_cons.1 hread
    cases xs with
    | nil =>
      rw [List.map_singleton, listed, items?, hx close rest (.inr rfl)]
      dsimp only
      rw [if_neg hclose, if_pos rfl]
    | cons x' xs =>
      have hrest := ih (List.cons_ne_nil x' xs) hxs (Nat.le_of_succ_le_succ hfuel)
      rw [List.map_cons] at hrest
      rw [List.map_cons, List.map_cons, listed_cons_cons, List.append_assoc, List.cons_append,
        items?, hx ',' _ (.inl rfl)]
      dsimp only
      rw [if_pos rfl, hrest]
      rfl

theorem list?_listed (hclose : close ≠ ',') {xs : List α}
    (hempty : ∀ rest, item? (close :: rest) = none)
    (hread : ∀ x ∈ xs, ∀ c rest, c = ',' ∨ c = close →
      item? (text x ++ c :: rest) = some (x, c :: rest)) {fuel : Nat} (hfuel : xs.length ≤ fuel)
    (rest : List Char) :
    list? close item? fuel (listed (xs.map text) ++ close :: rest) = some (xs, rest) := by
  unfold list?
  by_cases hne : xs = []
  · rw [hne]
    have hnone : items? close item? fuel (close :: rest) = none := by
      cases fuel with
      | zero => rfl
      | succ fuel => rw [items?, hempty]
    show (items? close item? fuel (close :: rest)).or _ = _
    rw [hnone, Option.none_or]
    exact if_pos rfl
  · rw [items?_listed hclose hne hread hfuel, Option.some_or]

end

/-! ## Values -/

/-- Reads a field of an object, with a reader of its value. -/
def field? (fuel : Nat) (value? : List Char → Option (Json × List Char)) :
    List Char → Option ((String × Json) × List Char)
  | '"' :: cs =>
    match stringTail? fuel cs with
    | some (name, ':' :: cs) => (value? cs).map fun (j, rest) => ((String.ofList name, j), rest)
    | _ => none
  | _ => none

/-- Reads a value that is no number, with a reader of the values in it. -/
def other? (fuel : Nat) (value? : List Char → Option (Json × List Char)) :
    List Char → Option (Json × List Char)
  | 'n' :: 'u' :: 'l' :: 'l' :: rest => some (null, rest)
  | 't' :: 'r' :: 'u' :: 'e' :: rest => some (bool true, rest)
  | 'f' :: 'a' :: 'l' :: 's' :: 'e' :: rest => some (bool false, rest)
  | '"' :: cs => (stringTail? fuel cs).map fun (s, rest) => (string (String.ofList s), rest)
  | '[' :: cs => (list? ']' value? fuel cs).map fun (js, rest) => (array js, rest)
  | '\x7b' :: cs =>
    (list? '\x7d' (field? fuel value?) fuel cs).map fun (ps, rest) => (object ps, rest)
  | _ => none

/-- Reads a value. -/
def value? : Nat → List Char → Option (Json × List Char)
  | 0, _ => none
  | fuel + 1, cs => (number? cs).or (other? fuel (value? fuel) cs)

theorem value?_of_number? {cs : List Char} {r : Json × List Char} {fuel : Nat}
    (h : number? cs = some r) : value? (fuel + 1) cs = some r := by
  rw [value?, h, Option.some_or]

/-- The text of a field. -/
def fieldText (p : String × Json) : List Char := quoted p.1 ++ ':' :: p.2.chars

theorem itemChars_eq_listed (items : List Json) : itemChars items = listed (items.map chars) := by
  induction items with
  | nil => rw [itemChars, List.map_nil, listed]
  | cons j js ih =>
    cases js with
    | nil => rw [itemChars, List.map_singleton, listed]
    | cons j' js =>
      have hcons : j' :: js ≠ [] := List.cons_ne_nil j' js
      rw [List.map_cons, List.map_cons, listed_cons_cons, itemChars, ih, List.map_cons]
      exact hcons

theorem fieldChars_eq_listed (fields : List (String × Json)) :
    fieldChars fields = listed (fields.map fieldText) := by
  induction fields with
  | nil => rw [fieldChars, List.map_nil, listed]
  | cons p ps ih =>
    obtain ⟨name, j⟩ := p
    cases ps with
    | nil =>
      rw [fieldChars, List.map_singleton, listed, fieldText]
    | cons p' ps =>
      have hcons : p' :: ps ≠ [] := List.cons_ne_nil p' ps
      rw [List.map_cons, List.map_cons, listed_cons_cons, fieldChars, ih, List.map_cons]
      · rfl
      · exact hcons

/-- The text of a value is read as the value, whatever comes next. -/
def Reads (j : Json) : Prop :=
  ∀ {fuel rest}, j.chars.length ≤ fuel → Ends rest → value? fuel (j.chars ++ rest) = some (j, rest)

theorem field?_fieldText {p : String × Json} (h : Reads p.2) {fuel : Nat}
    (hfuel : (fieldText p).length ≤ fuel) (hrest : Ends rest) :
    field? fuel (value? fuel) (fieldText p ++ rest) = some (p, rest) := by
  obtain ⟨name, j⟩ := p
  have hlength : (fieldText (name, j)).length = (quoted name).length + (j.chars.length + 1) :=
    List.length_append
  have hquoted : (quoted name).length ≤ fuel + 1 := by omega
  have hname := stringTail?_quoted name (':' :: (j.chars ++ rest)) hquoted
  have hfits : j.chars.length ≤ fuel := by omega
  have hvalue : value? fuel (j.chars ++ rest) = some (j, rest) := h hfits hrest
  have htext : fieldText (name, j) ++ rest =
      '"' :: (name.toList.flatMap escape ++ '"' :: ':' :: (j.chars ++ rest)) := by
    rw [fieldText, quoted, List.append_assoc, List.append_assoc]
    rfl
  rw [htext, field?, hname]
  show (value? fuel (j.chars ++ rest)).map _ = _
  rw [hvalue, Option.map_some, String.ofList_toList]

theorem reads_of_number? {j : Json}
    (h : ∀ {rest}, Ends rest → number? (j.chars ++ rest) = some (j, rest)) : Reads j := by
  intro fuel rest hfuel hrest
  cases fuel with
  | zero =>
    have hread := h ends_nil
    rw [List.length_eq_zero_iff.1 (Nat.le_zero.1 hfuel)] at hread
    cases hread
  | succ fuel => exact value?_of_number? (h hrest)

theorem reads_string (s : String) : Reads (.string s) := by
  intro fuel rest hfuel _
  have hlength : (Json.string s).chars.length = (s.toList.flatMap escape).length + 2 := by
    rw [chars, quoted, List.length_append, List.length_cons]
    rfl
  obtain ⟨fuel, rfl⟩ := Nat.exists_eq_add_one_of_ne_zero (show fuel ≠ 0 by omega)
  have hstring := stringTail?_quoted s rest hfuel
  have htext : (Json.string s).chars ++ rest = '"' :: (s.toList.flatMap escape ++ '"' :: rest) := by
    rw [chars, quoted, List.append_assoc]
    rfl
  rw [htext]
  show (stringTail? fuel _).map _ = _
  rw [hstring]
  exact congrArg (fun s => some (string s, rest)) String.ofList_toList

theorem reads_array {items : List Json} (h : ∀ j ∈ items, Reads j) : Reads (.array items) := by
  intro fuel rest hfuel _
  have hlength : (Json.array items).chars.length = (listed (items.map chars)).length + 2 := by
    rw [chars, itemChars_eq_listed, List.length_append, List.length_cons]
    rfl
  have hcount := length_le_listed (items.map chars)
  rw [List.length_map] at hcount
  obtain ⟨fuel, rfl⟩ := Nat.exists_eq_add_one_of_ne_zero (show fuel ≠ 0 by omega)
  -- No value begins with the bracket, so an empty list is not taken for an item.
  have hempty : ∀ rest, value? fuel (']' :: rest) = none := fun rest => by
    cases fuel <;> rfl
  have hread : ∀ j ∈ items, ∀ c rest, c = ',' ∨ c = ']' →
      value? fuel (j.chars ++ c :: rest) = some (j, c :: rest) := by
    intro j hj c rest hc
    have hfits := length_mem_le_listed (List.mem_map_of_mem (f := chars) hj)
    refine h j hj (by omega) (ends_cons ?_)
    rcases hc with rfl | rfl <;> rfl
  have hfits : items.length ≤ fuel := by omega
  have hitems := list?_listed (by decide) hempty hread hfits rest
  have htext : (Json.array items).chars ++ rest =
      '[' :: (listed (items.map chars) ++ ']' :: rest) := by
    rw [chars, itemChars_eq_listed, List.append_assoc]
    rfl
  rw [htext]
  show (list? ']' (value? fuel) fuel _).map _ = _
  rw [hitems]
  rfl

theorem reads_object {fields : List (String × Json)} (h : ∀ p ∈ fields, Reads p.2) :
    Reads (.object fields) := by
  intro fuel rest hfuel _
  have hlength :
      (Json.object fields).chars.length = (listed (fields.map fieldText)).length + 2 := by
    rw [chars, fieldChars_eq_listed, List.length_append, List.length_cons]
    rfl
  have hcount := length_le_listed (fields.map fieldText)
  rw [List.length_map] at hcount
  obtain ⟨fuel, rfl⟩ := Nat.exists_eq_add_one_of_ne_zero (show fuel ≠ 0 by omega)
  have hread : ∀ p ∈ fields, ∀ c rest, c = ',' ∨ c = '\x7d' →
      field? fuel (value? fuel) (fieldText p ++ c :: rest) = some (p, c :: rest) := by
    intro p hp c rest hc
    have hfits := length_mem_le_listed (List.mem_map_of_mem (f := fieldText) hp)
    refine field?_fieldText (h p hp) (by omega) (ends_cons ?_)
    rcases hc with rfl | rfl <;> rfl
  have hfits : fields.length ≤ fuel := by omega
  have hfields := list?_listed (by decide) (fun _ => rfl) hread hfits rest
  have htext : (Json.object fields).chars ++ rest =
      '\x7b' :: (listed (fields.map fieldText) ++ '\x7d' :: rest) := by
    rw [chars, fieldChars_eq_listed, List.append_assoc]
    rfl
  rw [htext]
  show (list? '\x7d' (field? fuel (value? fuel)) fuel _).map _ = _
  rw [hfields]
  rfl

theorem reads_null : Reads .null := by
  intro fuel rest hfuel _
  have htext : Json.null.chars = ['n', 'u', 'l', 'l'] := by simp [chars]
  rw [htext] at hfuel ⊢
  obtain ⟨fuel, rfl⟩ := Nat.exists_eq_add_of_lt hfuel
  rfl

theorem reads_bool (b : Bool) : Reads (.bool b) := by
  intro fuel rest hfuel _
  cases b with
  | true =>
    have htext : (Json.bool true).chars = ['t', 'r', 'u', 'e'] := by simp [chars]
    rw [htext] at hfuel ⊢
    obtain ⟨fuel, rfl⟩ := Nat.exists_eq_add_of_lt hfuel
    rfl
  | false =>
    have htext : (Json.bool false).chars = ['f', 'a', 'l', 's', 'e'] := by simp [chars]
    rw [htext] at hfuel ⊢
    obtain ⟨fuel, rfl⟩ := Nat.exists_eq_add_of_lt hfuel
    rfl

theorem reads_of_finite {j : Json} (h : j.Finite) : Reads j := by
  induction h with
  | null => exact reads_null
  | bool b => exact reads_bool b
  | integer n => exact reads_of_number? (number?_integer n)
  | real hx => exact reads_of_number? (number?_real hx)
  | string s => exact reads_string s
  | array _ ih => exact reads_array ih
  | object _ ih => exact reads_object ih

end Reader

/-- Reads the text of a value. -/
def read? (text : String) : Option Json :=
  match Reader.value? text.toList.length text.toList with
  | some (j, []) => some j
  | _ => none

/-- A value is given back by its text if its numbers are finite. -/
theorem read?_text {j : Json} (h : j.Finite) : read? j.text = some j := by
  have hread := Reader.reads_of_finite h (Nat.le_refl _) Reader.ends_nil
  rw [List.append_nil] at hread
  rw [read?, text, String.toList_ofList, hread]

end Json
end PocketCalc
