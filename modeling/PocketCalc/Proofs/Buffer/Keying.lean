import Mathlib.Data.List.Forall2
import Mathlib.Data.List.Induction
import PocketCalc.Key
import PocketCalc.Proofs.Buffer.Entry

/-!
# Typing a buffer

Every token has the keys that type it.  The keys of all tokens of a buffer, pressed one after
the other, type the buffer again if it is one that can be built up token by token and none of
its numbers has a sign.  The symbols of these keys are the characters that the buffer shows.
-/

namespace PocketCalc

open Numeral (Canonical)

/-- The key of a character of a numeral. -/
def Key.ofNumeral (c : Char) : Key :=
  if c = '.' then .decimalPoint else .digit (UInt8.ofNat (c.toNat - '0'.toNat))

/-- The keys that type a token.  One key stands for both parentheses. -/
def Token.keys : Token → List Key
  | number text => text.toList.map Key.ofNumeral
  | operator op => [.operator op]
  | leftParen | rightParen => [.paren]
  | percent => [.percent]

namespace Buffer

/-- What a key makes of the buffer while an expression is being typed, if it is a key that
types and is not refused. -/
def keyed? (mode : ParenMode) (b : Buffer) (key : Key) : Option Buffer :=
  match key with
  | .digit _ => key.digitChar?.map b.appendDigit
  | .decimalPoint => some b.appendPoint
  | .operator op =>
    ((if b.isEmpty then b.appendDigit '0' else b).append (.operator op)).toOption
  | .paren => some (b.appendParen mode)
  | .percent => (b.append .percent).toOption
  | .backspace => some b.backspace
  | _ => none

variable {mode : ParenMode} {b : Buffer} {t : Token} {c : Char} {cs : List Char}

theorem keyed?_digit (hc : c.isDigit) :
    b.keyed? mode (Key.ofNumeral c) = some (b.appendDigit c) := by
  have hkey : ∃ n, Key.ofNumeral c = .digit n ∧ (Key.digit n).digitChar? = some c := by
    obtain ⟨n, rfl⟩ := exists_eq_digitChar hc
    refine ⟨UInt8.ofNat n, ?_, ?_⟩
    · revert n
      decide
    · revert n
      decide
  obtain ⟨n, hn, hdigit⟩ := hkey
  rw [hn]
  show (Key.digit n).digitChar?.map b.appendDigit = _
  rw [hdigit]
  rfl

theorem keyed?_operator {op : Operator} (hlast : b.last? = some t) (ht : t.endsOperand) :
    b.keyed? mode (.operator op) = some (b.push (.operator op)) := by
  have hb : ¬ b.isEmpty := fun h => by
    rw [isEmpty_iff.1 h] at hlast
    cases hlast
  have happend : b.append (.operator op) = .ok (b.push (.operator op)) :=
    append_operator_eq_ok.2 ⟨rfl, t, hlast, ht⟩
  unfold keyed?
  simp only [if_neg hb]
  rw [happend]
  rfl

theorem keyed?_percent (hlast : b.last? = some t) (ht : t.endsOperand) (hne : t ≠ .percent) :
    b.keyed? mode .percent = some (b.push .percent) := by
  have happend : b.append .percent = .ok (b.push .percent) :=
    append_percent_eq_ok.2 ⟨rfl, t, hlast, ht, hne⟩
  unfold keyed?
  rw [happend]
  rfl

theorem foldlM_keyed?_singleton (key : Key) :
    [key].foldlM (keyed? mode) b = b.keyed? mode key := Option.bind_fun_some _

/-- The digits and the point of a canonical numeral go into one number. -/
theorem keyed?_numeral (hopen : b.openNumber? = none) (hcs : Canonical cs) :
    (cs.map Key.ofNumeral).foldlM (keyed? mode) b =
      some (b.push (.number (String.ofList cs))) := by
  -- Digits come in at the end, so the induction is on the last one.
  induction cs using List.reverseRecOn with
  | nil => exact absurd rfl hcs.numeral.ne_nil
  | append_singleton cs c ih =>
    by_cases hfirst : cs = []
    · subst hfirst
      obtain ⟨d, rest, hd, hdigit⟩ := hcs.numeral.exists_eq_cons
      obtain ⟨rfl, -⟩ := List.cons.inj hd
      rw [List.nil_append, List.map_singleton, foldlM_keyed?_singleton, keyed?_digit hdigit,
        appendDigit_of_not_open hopen hdigit]
      rfl
    · have hbefore := hcs.of_append_singleton hfirst
      have hopened : (b.push (.number (String.ofList cs))).openNumber? =
          some (String.ofList cs) := openNumber?_eq_some.2 (last?_push _ _)
      rw [List.map_append, List.foldlM_append, ih hbefore, List.map_singleton]
      show [Key.ofNumeral c].foldlM (keyed? mode) (b.push (.number (String.ofList cs))) = _
      rw [foldlM_keyed?_singleton]
      rcases hcs.numeral.isDigit_or_point (List.mem_append_right _ List.mem_cons_self) with
        hdigit | rfl
      · have hcount := hbefore.numeral.count_point_le_one
        have htext : extend (String.ofList cs) (String.singleton c) = String.ofList (cs ++ [c]) := by
          rw [← String.toList_inj, toList_extend_digit _ hdigit, String.toList_ofList,
            String.toList_ofList, if_neg (hcs.ne_zero_of_append_digit hdigit)]
        rw [keyed?_digit hdigit,
          appendDigit_of_open hopened hdigit (by rwa [String.toList_ofList]), pop_push, htext]
      · have hpoint := hcs.numeral.point_not_mem_of_append
        have htext : (String.ofList cs).push '.' = String.ofList (cs ++ ['.']) := by
          rw [← String.toList_inj, String.toList_push, String.toList_ofList, String.toList_ofList]
        show some (b.push (.number (String.ofList cs))).appendPoint = _
        rw [appendPoint_of_open hopened, String.toList_ofList, if_neg hpoint, pop_push, htext]

/-- The keys of a token type it wherever it is admissible, if it has no sign. -/
theorem Accepts.keyed (h : b.Accepts mode t)
    (hnumber : ∀ text, t = .number text → Canonical text.toList) :
    t.keys.foldlM (keyed? mode) b = some (b.push t) := by
  have hnumeral : ∀ text, b.openNumber? = none → Canonical text.toList →
      (Token.number text).keys.foldlM (keyed? mode) b = some (b.push (.number text)) := by
    intro text hopen htext
    rw [Token.keys, keyed?_numeral hopen htext, String.ofList_toList]
  cases h with
  | number hopen htext => exact hnumeral _ hopen htext
  | signed hb htext hcs =>
    refine hnumeral _ ?_ (hnumber _ rfl)
    rw [isEmpty_iff.1 hb]
    rfl
  | operator hlast ht =>
    rw [Token.keys, foldlM_keyed?_singleton]
    exact keyed?_operator hlast ht
  | percent hlast ht hne =>
    rw [Token.keys, foldlM_keyed?_singleton]
    exact keyed?_percent hlast ht hne
  | paren ht =>
    subst ht
    have hkeys : (b.nextParen mode).keys = [.paren] := by
      rcases b.nextParen_eq_or mode with h | h
      · rw [h]; rfl
      · rw [h]; rfl
    rw [hkeys, foldlM_keyed?_singleton]
    rfl

/-- The keys of the last tokens of a buffer that was typed somehow type them after the tokens
before, if they have no signs in their numbers. -/
theorem Entered.keyed_append (front : List Token) {ts : List Token}
    (h : (Buffer.mk (front ++ ts)).Entered mode)
    (hnumbers : ∀ text, .number text ∈ ts → Canonical text.toList) :
    (ts.flatMap Token.keys).foldlM (keyed? mode) (Buffer.mk front) =
      some (Buffer.mk (front ++ ts)) := by
  induction ts generalizing front with
  | nil =>
    rw [List.append_nil]
    rfl
  | cons t ts ih =>
    have ht : (Buffer.mk front).Accepts mode t := h.accepts rfl
    have hkeys : t.keys.foldlM (keyed? mode) (Buffer.mk front) = some (Buffer.mk (front ++ [t])) :=
      ht.keyed fun text hnumber => hnumbers text (hnumber ▸ List.mem_cons_self)
    rw [List.append_cons] at h ⊢
    rw [List.flatMap_cons, List.foldlM_append, hkeys]
    exact ih _ h fun text hmem => hnumbers text (List.mem_cons_of_mem _ hmem)

/-- A buffer that was typed somehow, without signs in its numbers, is what the keys of its
tokens type. -/
theorem Entered.keyed (h : b.Entered mode)
    (hnumbers : ∀ text, .number text ∈ b.tokens → Canonical text.toList) :
    (b.tokens.flatMap Token.keys).foldlM (keyed? mode) Buffer.empty = some b :=
  keyed_append [] h hnumbers

/-! ## Symbols -/

theorem ofSymbol_numeral (hc : c.isDigit ∨ c = '.') :
    Key.ofSymbol (String.singleton c) = .ok (Key.ofNumeral c) := by
  rcases hc with hc | rfl
  · obtain ⟨n, rfl⟩ := exists_eq_digitChar hc
    revert n
    decide +kernel
  · decide +kernel

theorem Accepts.symbols (h : b.Accepts mode t)
    (hnumber : ∀ text, t = .number text → Canonical text.toList) :
    List.Forall₂ (fun c key => Key.ofSymbol (String.singleton c) = .ok key) t.chars t.keys := by
  cases t with
  | number text =>
    refine List.forall₂_map_right_iff.2 (List.forall₂_same.2 fun c hc => ?_)
    exact ofSymbol_numeral ((hnumber text rfl).numeral.isDigit_or_point hc)
  | operator op =>
    refine .cons ?_ .nil
    cases op <;> decide +kernel
  | leftParen | rightParen | percent => exact .cons (by decide +kernel) .nil

theorem Entered.symbols (h : b.Entered mode)
    (hnumbers : ∀ text, .number text ∈ b.tokens → Canonical text.toList) :
    List.Forall₂ (fun c key => Key.ofSymbol (String.singleton c) = .ok key)
      (b.tokens.flatMap Token.chars) (b.tokens.flatMap Token.keys) := by
  induction h with
  | empty => exact .nil
  | @push b t h ht ih =>
    rw [tokens_push, List.flatMap_append, List.flatMap_append, List.flatMap_singleton,
      List.flatMap_singleton]
    refine List.rel_append (ih fun text hmem => hnumbers text (List.mem_append_left _ hmem)) ?_
    refine ht.symbols fun text hnumber => hnumbers text ?_
    rw [← hnumber]
    exact List.mem_append_right _ List.mem_cons_self

/-- Only the sign of its first number can make an expression begin with a minus sign. -/
theorem Entered.canonical_of_head (h : b.Entered mode)
    (hhead : (b.tokens.flatMap Token.chars).head? ≠ some '-') :
    ∀ text, .number text ∈ b.tokens → Canonical text.toList := by
  induction h with
  | empty => exact fun _ h => absurd h List.not_mem_nil
  | @push b t h ht ih =>
    rw [chars_push, List.head?_append] at hhead
    intro text hmem
    rcases List.mem_append.1 hmem with hmem | hmem
    · refine ih (fun hminus => hhead ?_) text hmem
      rw [hminus]
      rfl
    · obtain rfl := List.mem_singleton.1 hmem
      cases ht with
      | number _ htext => exact htext
      | signed hb htext _ =>
        refine absurd ?_ hhead
        rw [isEmpty_iff.1 hb]
        show text.toList.head? = some '-'
        rw [htext]
        rfl
      | paren ht => exact absurd ht (nextParen_ne_number text)

end Buffer
end PocketCalc
