import PocketCalc.Proofs.Buffer.Entry

/-!
# Expressions read back from their text

The text of an expression has no separators, and a minus sign is an operator in one place and the
sign of a number in another.  It still gives back its tokens.  No expression begins with an
operator and only its first number can have a sign, so a minus sign belongs to a number exactly at
the beginning; and numbers never stand next to each other, so the digits and points that follow
one another belong to a single number.
-/

namespace PocketCalc

/-- The token that a character is by itself. -/
def Token.ofGlyph? : Char → Option Token
  | '(' => some leftParen
  | ')' => some rightParen
  | '%' => some percent
  | c => (Operator.ofGlyph? c).map operator

namespace Buffer

/-- The buffer whose text goes on with a character.  A character of a number goes into the open
number, if there is one. -/
def scan (b : Buffer) (c : Char) : Buffer :=
  if c.isDigit ∨ c = '.' ∨ c = '-' ∧ b.isEmpty then
    match b.openNumber? with
    | some text => b.pop.push (.number (text.push c))
    | none => b.push (.number (String.singleton c))
  else
    match Token.ofGlyph? c with
    | some t => b.push t
    | none => b

/-- The buffer that a text shows. -/
def ofText (text : String) : Buffer := text.toList.foldl scan empty

variable {mode : ParenMode} {b : Buffer} {t : Token} {c : Char} {cs : List Char}

theorem scan_not_open (hopen : b.openNumber? = none)
    (hc : c.isDigit ∨ c = '.' ∨ c = '-' ∧ b.isEmpty) :
    b.scan c = b.push (.number (String.singleton c)) := by
  rw [scan, if_pos hc, hopen]

theorem scan_open (text : String) (hc : c.isDigit ∨ c = '.') :
    (b.push (.number text)).scan c = b.push (.number (text.push c)) := by
  have hopen : (b.push (.number text)).openNumber? = some text :=
    openNumber?_eq_some.2 (last?_push _ _)
  rw [scan, if_pos (hc.imp_right .inl), hopen]
  simp only [pop_push]

theorem foldl_scan_glyph (hchars : t.chars = [c]) (ht : Token.ofGlyph? c = some t)
    (hnumber : ¬ (c.isDigit ∨ c = '.')) (hsign : c = '-' → ¬ b.isEmpty) :
    t.chars.foldl scan b = b.push t := by
  have hc : ¬ (c.isDigit ∨ c = '.' ∨ c = '-' ∧ b.isEmpty) := by
    rintro (h | h | ⟨h, hb⟩)
    · exact hnumber (.inl h)
    · exact hnumber (.inr h)
    · exact hsign h hb
  rw [hchars, List.foldl_cons, scan, if_neg hc, ht]
  rfl

/-- The rest of a number goes into it. -/
theorem foldl_scan_open (text : String) (hcs : ∀ c ∈ cs, c.isDigit ∨ c = '.') :
    cs.foldl scan (b.push (.number text)) =
      b.push (.number (String.ofList (text.toList ++ cs))) := by
  induction cs generalizing text with
  | nil => rw [List.foldl_nil, List.append_nil, String.ofList_toList]
  | cons c cs ih =>
    rw [List.foldl_cons, scan_open text (hcs c List.mem_cons_self),
      ih _ fun d hd => hcs d (List.mem_cons_of_mem _ hd), String.toList_push, List.append_assoc,
      List.singleton_append]

/-- A number is read as a whole if its first character begins one. -/
theorem foldl_scan_number (hopen : b.openNumber? = none)
    (hc : c.isDigit ∨ c = '.' ∨ c = '-' ∧ b.isEmpty) (hcs : ∀ d ∈ cs, d.isDigit ∨ d = '.') :
    (c :: cs).foldl scan b = b.push (.number (String.ofList (c :: cs))) := by
  rw [List.foldl_cons, scan_not_open hopen hc, foldl_scan_open _ hcs, String.toList_singleton,
    List.singleton_append]

/-- The characters of a token are read as this token wherever it may stand. -/
theorem Accepts.foldl_scan (h : b.Accepts mode t) : t.chars.foldl scan b = b.push t := by
  cases h with
  | @number text hopen htext =>
    obtain ⟨c, cs, hcons, hc⟩ := htext.numeral.exists_eq_cons
    rw [Token.chars, ← String.ofList_toList (s := text), String.toList_ofList, hcons]
    refine foldl_scan_number hopen (.inl hc) fun d hd => htext.numeral.isDigit_or_point ?_
    rw [hcons]
    exact List.mem_cons_of_mem _ hd
  | @signed text cs hb htext hcs =>
    have hopen : b.openNumber? = none := by
      rw [isEmpty_iff.1 hb]
      rfl
    rw [Token.chars, ← String.ofList_toList (s := text), String.toList_ofList, htext]
    exact foldl_scan_number hopen (.inr (.inr ⟨rfl, hb⟩)) fun d hd => hcs.isDigit_or_point hd
  | @operator op u hlast _ =>
    -- Something stands before an operator, so a minus sign is no sign here.
    have hb : ¬ b.isEmpty := fun hb => by
      rw [isEmpty_iff.1 hb] at hlast
      cases hlast
    cases op with
    | add | sub | mul | div => exact foldl_scan_glyph rfl rfl (by decide) fun _ => hb
  | percent => exact foldl_scan_glyph rfl rfl (by decide) fun h => absurd h (by decide)
  | paren ht =>
    rcases b.nextParen_eq_or mode with hnext | hnext
    · obtain rfl : t = .leftParen := ht.symm.trans hnext
      exact foldl_scan_glyph rfl rfl (by decide) fun h => absurd h (by decide)
    · obtain rfl : t = .rightParen := ht.symm.trans hnext
      exact foldl_scan_glyph rfl rfl (by decide) fun h => absurd h (by decide)

theorem Entered.foldl_scan (h : b.Entered mode) :
    (b.tokens.flatMap Token.chars).foldl scan Buffer.empty = b := by
  induction h with
  | empty => rfl
  | push _ ht ih => rw [chars_push, List.foldl_append, ih, ht.foldl_scan]

/-- An expression is read back from its text.  The zero shown for an empty buffer is the one text
that does not come from tokens. -/
theorem Entered.ofText_render (h : b.Entered mode) (hb : ¬ b.isEmpty) : ofText b.render = b := by
  rw [ofText, toList_render hb, h.foldl_scan]

end Buffer
end PocketCalc
