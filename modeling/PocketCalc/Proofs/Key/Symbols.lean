import PocketCalc.Key
import PocketCalc.Proofs.Number.Numeral

/-!
# Symbols of keys

The symbol of a key on the keypad is read as that key, whatever blanks stand around it, and all
that is read is read as a key on the keypad (`symbols_round_trip`).  The names that are looked up
as a whole do not get in the way of an index: none of them goes on with a digit after an `H`.  An
index of `2 ^ 64` or more is refused, not taken for another one.
-/

namespace PocketCalc

namespace Blank

/-- The text has nothing in it but blanks. -/
def Only (s : String) : Prop := ∀ c ∈ s.toList, isBlank c

instance (s : String) : Decidable (Only s) :=
  decidable_of_iff (s.toList.all isBlank = true) List.all_eq_true

theorem not_isBlank_of_isDigit {c : Char} (hc : c.isDigit) : ¬ isBlank c := by
  obtain ⟨n, rfl⟩ := exists_eq_digitChar hc
  revert n
  decide

/-- Blanks around a text without blanks are what is taken off. -/
theorem trim_around {s front back : String} (hs : ∀ c ∈ s.toList, ¬ isBlank c)
    (hfront : Only front) (hback : Only back) : trim (front ++ s ++ back).toList = s.toList := by
  rw [String.toList_append, String.toList_append, trim_append_blanks _ hback,
    trim_blanks_append hfront, trim_eq_self hs]

end Blank

namespace Literal

theorem exists_eq_cons_of_isDigits {ds : List Char} (h : isDigits ds) :
    ∃ d rest, ds = d :: rest ∧ d.isDigit := by
  obtain ⟨hne, hall⟩ := Bool.and_eq_true_iff.1 h
  cases ds with
  | nil => cases hne
  | cons d rest => exact ⟨d, rest, rfl, List.all_eq_true.1 hall d List.mem_cons_self⟩

theorem isDigit_of_mem {ds : List Char} (h : isDigits ds) {c : Char} (hc : c ∈ ds) : c.isDigit :=
  List.all_eq_true.1 (Bool.and_eq_true_iff.1 h).2 c hc

theorem isDigits_toDigits (n : Nat) : isDigits (Nat.toDigits 10 n) := by
  have hempty : (Nat.toDigits 10 n).isEmpty = false :=
    List.isEmpty_eq_false_iff.2 Nat.toDigits_ne_nil
  rw [isDigits, hempty]
  exact List.all_eq_true.2 fun _ => Decimal.isDigit_of_mem_toDigits

end Literal

namespace Key

open Literal (isDigits)

/-- Whether a key is on the keypad: all are but the digits above nine. -/
def onKeypad : Key → Bool
  | digit n => n < 10
  | _ => true

variable {key : Key} {cs ds : List Char}

/-! ## Indices -/

/-- Digits are read as the number that they denote, and not at all if it is too great. -/
theorem index?_digits (h : isDigits ds) :
    index? ds = if Nat.ofDigitChars 10 ds 0 < UInt64.size
      then some (UInt64.ofNat (Nat.ofDigitChars 10 ds 0)) else none := by
  obtain ⟨d, rest, rfl, hd⟩ := Literal.exists_eq_cons_of_isDigits h
  have hplus : d ≠ '+' := fun hplus => absurd hd (hplus ▸ by decide)
  unfold index?
  split
  · next hcons => exact absurd (List.cons.inj hcons).1 hplus
  · simp only [h, Bool.true_and, decide_eq_true_eq]

/-- No name goes on with a digit after its first character. -/
theorem lookup_index (h : isDigits ds) : named.lookup (String.ofList ('H' :: ds)) = none := by
  obtain ⟨d, rest, rfl, hd⟩ := Literal.exists_eq_cons_of_isDigits h
  have hnamed : ∀ p ∈ named, p.1.toList.tail.head?.any Char.isDigit = false := by decide
  refine List.lookup_eq_none_iff.2 fun p hp => bne_iff_ne.2 fun heq => ?_
  have hname := hnamed p hp
  rw [← heq, String.toList_ofList] at hname
  exact Bool.false_ne_true (hname.symm.trans hd)

theorem ofTrimmed?_index (h : isDigits ds) :
    ofTrimmed? ('H' :: ds) = (index? ds).map selectHistory := by
  have hlookup := lookup_index h
  obtain ⟨d, rest, rfl, -⟩ := Literal.exists_eq_cons_of_isDigits h
  simp only [ofTrimmed?, hlookup]

theorem toList_symbol_selectHistory (index : UInt64) :
    (selectHistory index).symbol.toList = 'H' :: Nat.toDigits 10 index.toNat := by
  rw [symbol, String.toList_append, Nat.toList_repr]
  rfl

/-! ## Symbols without blanks around them -/

theorem ofTrimmed?_symbol (h : key.onKeypad) : ofTrimmed? key.symbol.toList = some key := by
  cases key with
  | digit n =>
    have hn : n < 10 := of_decide_eq_true h
    obtain ⟨m, rfl⟩ := exists_eq_ofNat_of_lt_ten hn
    clear h hn
    revert m
    decide
  | operator op => cases op <;> decide
  | selectHistory index =>
    have hdigits := Literal.isDigits_toDigits index.toNat
    rw [toList_symbol_selectHistory, ofTrimmed?_index hdigits, index?_digits hdigits,
      Nat.ofDigitChars_ten_toDigits, if_pos index.toNat_lt_size, UInt64.ofNat_toNat,
      Option.map_some]
  | _ => decide

/-- What is read is a key on the keypad. -/
theorem onKeypad_of_ofTrimmed? (h : ofTrimmed? cs = some key) : key.onKeypad := by
  have hnamed : ∀ p ∈ named, p.2.onKeypad := by decide
  unfold ofTrimmed? at h
  split at h
  · next hlookup =>
    obtain rfl := Option.some.inj h
    obtain ⟨before, after, hsplit, -⟩ := List.lookup_eq_some_iff.1 hlookup
    refine hnamed (String.ofList cs, _) ?_
    rw [hsplit]
    exact List.mem_append_right before List.mem_cons_self
  · split at h
    · split at h
      · next hc =>
        obtain rfl := Option.some.inj h
        obtain ⟨n, rfl⟩ := exists_eq_digitChar hc
        revert n
        decide
      · obtain ⟨op, -, rfl⟩ := Option.map_eq_some_iff.1 h
        rfl
    · obtain ⟨index, -, rfl⟩ := Option.map_eq_some_iff.1 h
      rfl
    · cases h

theorem not_isBlank_of_mem_symbol (key : Key) : ∀ c ∈ key.symbol.toList, ¬ Blank.isBlank c := by
  have hdigits : ∀ n, ∀ c ∈ Nat.toDigits 10 n, ¬ Blank.isBlank c := fun n c hc =>
    Blank.not_isBlank_of_isDigit (Decimal.isDigit_of_mem_toDigits hc)
  have hfixed : ∀ {cs : List Char}, (cs.all fun c => ¬ Blank.isBlank c) → ∀ c ∈ cs,
      ¬ Blank.isBlank c := fun hall c hc => of_decide_eq_true (List.all_eq_true.1 hall c hc)
  cases key with
  | digit n =>
    rw [symbol, Nat.toList_repr]
    exact hdigits n.toNat
  | operator op => exact hfixed (by cases op <;> decide)
  | selectHistory index =>
    rw [toList_symbol_selectHistory]
    exact List.forall_mem_cons.2 ⟨by decide, hdigits index.toNat⟩
  | _ => exact hfixed (by decide)

/-! ## Symbols -/

theorem ofSymbol_of_trim {s : String} (htrim : Blank.trim s.toList = cs)
    (h : ofTrimmed? cs = some key) : ofSymbol s = .ok key := by
  simp only [ofSymbol, htrim, h]

theorem ofSymbol_unknown {s : String} (htrim : Blank.trim s.toList = cs)
    (h : ofTrimmed? cs = none) : ofSymbol s = .error (.unknown (String.ofList cs)) := by
  simp only [ofSymbol, htrim, h]

theorem ofTrimmed?_of_ofSymbol {s : String} (h : ofSymbol s = .ok key) :
    ofTrimmed? (Blank.trim s.toList) = some key := by
  cases hread : ofTrimmed? (Blank.trim s.toList) with
  | some key' => exact congrArg some (Except.ok.inj ((ofSymbol_of_trim rfl hread).symm.trans h))
  | none => exact nomatch (ofSymbol_unknown rfl hread).symm.trans h

/-- A key on the keypad is read from its symbol, with any blanks around it.  What is read from any
text is a key on the keypad, and is read again from its own symbol.  An `H` with digits after it
is refused, without the blanks around it, if the number is `2 ^ 64` or more. -/
theorem symbols_round_trip :
    (∀ (key : Key) (front back : String), key.onKeypad → Blank.Only front → Blank.Only back →
      ofSymbol (front ++ key.symbol ++ back) = .ok key) ∧
    (∀ s key, ofSymbol s = .ok key → key.onKeypad ∧ ofSymbol key.symbol = .ok key) ∧
    ∀ digits front back : String, isDigits digits.toList →
      Nat.pow 2 64 ≤ Nat.ofDigitChars 10 digits.toList 0 → Blank.Only front → Blank.Only back →
      ofSymbol (front ++ ("H" ++ digits) ++ back) = .error (.unknown ("H" ++ digits)) := by
  have hread : ∀ (key : Key) (front back : String), key.onKeypad → Blank.Only front →
      Blank.Only back → ofSymbol (front ++ key.symbol ++ back) = .ok key := by
    intro key front back hkey hfront hback
    have htrim := Blank.trim_around (not_isBlank_of_mem_symbol key) hfront hback
    exact ofSymbol_of_trim htrim (ofTrimmed?_symbol hkey)
  refine ⟨hread, fun s key h => ?_, fun digits front back hdigits hgreat hfront hback => ?_⟩
  · have hkey := onKeypad_of_ofTrimmed? (ofTrimmed?_of_ofSymbol h)
    have hself := hread key "" "" hkey nofun nofun
    rw [String.empty_append, String.append_empty] at hself
    exact ⟨hkey, hself⟩
  · have hindex : ("H" ++ digits).toList = 'H' :: digits.toList := String.toList_append
    have hblank : ∀ c ∈ ("H" ++ digits).toList, ¬ Blank.isBlank c := by
      rw [hindex]
      refine List.forall_mem_cons.2 ⟨by decide, fun c hc => ?_⟩
      exact Blank.not_isBlank_of_isDigit (Literal.isDigit_of_mem hdigits hc)
    have hnone : ofTrimmed? ("H" ++ digits).toList = none := by
      rw [hindex, ofTrimmed?_index hdigits, index?_digits hdigits,
        if_neg (Nat.not_lt_of_le hgreat), Option.map_none]
    rw [ofSymbol_unknown (Blank.trim_around hblank hfront hback) hnone, String.ofList_toList]

/-- The greatest index among blanks, the next number after it, and a symbol with a sign and zeros
that the key it is read as does not have. -/
theorem symbols_round_trip_greatestIndex :
    Blank.Only " \t" ∧ Blank.Only "\u3000" ∧
    ofSymbol (" \t" ++ (selectHistory 18446744073709551615).symbol ++ "\u3000") =
      .ok (selectHistory 18446744073709551615) ∧
    ofSymbol (" \t" ++ ("H" ++ "18446744073709551616") ++ "\u3000") =
      .error (.unknown ("H" ++ "18446744073709551616")) ∧
    ofSymbol "H+007 " = .ok (selectHistory 7) ∧ (selectHistory 7).symbol = "H7" ∧
    ofSymbol (selectHistory 7).symbol = .ok (selectHistory 7) := by
  obtain ⟨hread, hsymbol, hgreat⟩ := symbols_round_trip
  have hfront : Blank.Only " \t" := by decide
  have hback : Blank.Only "\u3000" := by decide
  have htrim : Blank.trim "H+007 ".toList = "H+007".toList := by decide
  have hseven : ofSymbol "H+007 " = .ok (selectHistory 7) := ofSymbol_of_trim htrim (by decide)
  exact ⟨hfront, hback, hread _ _ _ rfl hfront hback,
    hgreat _ _ _ (by decide +kernel) (by decide +kernel) hfront hback, hseven,
    by decide +kernel, (hsymbol _ _ hseven).2⟩

end Key
end PocketCalc
