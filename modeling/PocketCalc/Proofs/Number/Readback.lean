import PocketCalc.Number.Format
import PocketCalc.Number.Literal
import PocketCalc.Proofs.Number.Bits

/-!
# Numbers read back

The text of a number is a literal, and its value is the number: the text has the digits of
a decimal whose nearest double is that number (`read?_format`).  The only finite number
that does not come back is the negative zero, since zero is written without a sign.
-/

namespace PocketCalc

namespace Literal

/-! ## Reading digits -/

theorem span_digits {ds : List Char} (hds : ∀ c ∈ ds, c.isDigit) (rest : List Char)
    (hrest : rest.head?.any Char.isDigit = false) :
    (ds ++ rest).takeWhile Char.isDigit = ds ∧ (ds ++ rest).dropWhile Char.isDigit = rest := by
  rw [List.takeWhile_append_of_pos hds, List.dropWhile_append_of_pos hds]
  cases rest with
  | nil => exact ⟨List.append_nil ds, rfl⟩
  | cons c rest =>
    have hc : ¬ c.isDigit := ne_true_of_eq_false hrest
    rw [List.takeWhile_cons_of_neg hc, List.dropWhile_cons_of_neg hc, List.append_nil]
    exact ⟨rfl, rfl⟩

theorem span_digits_only {ds : List Char} (hds : ∀ c ∈ ds, c.isDigit) :
    ds.takeWhile Char.isDigit = ds ∧ ds.dropWhile Char.isDigit = [] := by
  have h := span_digits hds [] rfl
  rwa [List.append_nil] at h

theorem decimal?_whole {ds : List Char} (hds : ∀ c ∈ ds, c.isDigit) (hne : ds ≠ []) :
    decimal? ds = some ⟨Nat.ofDigitChars 10 ds 0, (0 : Nat)⟩ := by
  obtain ⟨htake, hdrop⟩ := span_digits_only hds
  have hempty : ds.isEmpty = false := List.isEmpty_eq_false_iff.2 hne
  simp only [decimal?, htake, hdrop, fraction, hempty, exponent?, List.append_nil,
    List.length_nil, Bool.false_and, Bool.false_eq_true, if_false, Option.map_some]
  rfl

theorem decimal?_point {ds ps : List Char} (hds : ∀ c ∈ ds, c.isDigit) (hne : ds ≠ [])
    (hps : ∀ c ∈ ps, c.isDigit) :
    decimal? (ds ++ '.' :: ps) = some ⟨Nat.ofDigitChars 10 (ds ++ ps) 0, -(ps.length : Nat)⟩ := by
  obtain ⟨htake, hdrop⟩ := span_digits hds ('.' :: ps) rfl
  obtain ⟨htake', hdrop'⟩ := span_digits_only hps
  have hempty : ds.isEmpty = false := List.isEmpty_eq_false_iff.2 hne
  simp only [decimal?, htake, hdrop, fraction, htake', hdrop', hempty, exponent?,
    Bool.false_and, Bool.false_eq_true, if_false, Option.map_some, Int.zero_sub]

/-! ## Literals that begin with a digit -/

theorem toLower_of_isDigit {c : Char} (hc : c.isDigit) : c.toLower = c := by
  refine dif_neg fun hupper => ?_
  have hA : 'A'.toNat ≤ c.toNat := UInt32.le_iff_toNat_le.1 hupper.1
  exact absurd (Nat.le_trans hA (Char.isDigit_iff_toNat.1 hc).2) (by decide)

/-- What begins with a digit is no word. -/
theorem isWord_eq_false {word : String} {c : Char} {cs : List Char} (hc : c.isDigit)
    (hword : word.toList.head?.any Char.isDigit = false) : isWord word (c :: cs) = false := by
  refine decide_eq_false fun h => ?_
  rw [← h, List.map_cons, toLower_of_isDigit hc] at hword
  exact Bool.false_ne_true (hword.symm.trans hc)

theorem unsigned?_eq {c : Char} {cs : List Char} (hc : c.isDigit) (negative : Bool) :
    unsigned? negative (c :: cs) =
      (decimal? (c :: cs)).map fun d => Double.ofPattern negative d.pattern := by
  have hinf : isWord "inf" (c :: cs) = false := isWord_eq_false hc (by decide)
  have hinfinity : isWord "infinity" (c :: cs) = false := isWord_eq_false hc (by decide)
  have hnan : isWord "nan" (c :: cs) = false := isWord_eq_false hc (by decide)
  simp only [unsigned?, hinf, hinfinity, hnan, Bool.or_self, Bool.false_eq_true, if_false]

theorem read?_of_isDigit {c : Char} {cs : List Char} (hc : c.isDigit) :
    read? (c :: cs) = unsigned? false (c :: cs) := by
  unfold read?
  split
  · next h => obtain ⟨rfl, -⟩ := List.cons.inj h; exact absurd hc (by decide)
  · next h => obtain ⟨rfl, -⟩ := List.cons.inj h; exact absurd hc (by decide)
  · rfl

end Literal

namespace Decimal

/-! ## The digits of a decimal -/

theorem isDigit_of_mem_toDigits {n : Nat} {c : Char} (h : c ∈ Nat.toDigits 10 n) : c.isDigit :=
  Nat.isDigit_of_mem_toDigits (by decide) (by decide) h

theorem isDigit_of_mem_zeros {n : Nat} {c : Char} (h : c ∈ List.replicate n '0') : c.isDigit := by
  rw [(List.mem_replicate.1 h).2]
  decide

theorem isDigit_of_mem_padded {width n : Nat} {c : Char} (h : c ∈ padded width n) :
    c.isDigit := by
  rcases List.mem_append.1 h with h | h
  · exact isDigit_of_mem_zeros h
  · exact isDigit_of_mem_toDigits h

theorem length_padded {width n : Nat} (hw : 0 < width) (h : n < Nat.pow 10 width) :
    (padded width n).length = width := by
  have hle := (Nat.length_toDigits_le_iff (by decide) hw).2 h
  unfold padded
  rw [List.length_append, List.length_replicate]
  omega

theorem ofDigitChars_padded_zero (width n : Nat) :
    Nat.ofDigitChars 10 (padded width n) 0 = n := by
  unfold padded
  rw [Nat.ofDigitChars_append, Nat.ofDigitChars_replicate_zero, Nat.mul_zero,
    Nat.ofDigitChars_ten_toDigits]

theorem ofDigitChars_padded {width n : Nat} (hw : 0 < width) (h : n < Nat.pow 10 width)
    (init : Nat) : Nat.ofDigitChars 10 (padded width n) init = init * Nat.pow 10 width + n := by
  rw [Nat.ofDigitChars_eq_ofDigitChars_zero, ofDigitChars_padded_zero, length_padded hw h,
    Nat.mul_comm]
  rfl

/-- The digits of a decimal are read as a decimal of the same nearest double. -/
theorem decimal?_plain (d : Decimal) :
    (Literal.decimal? d.plain).map pattern = some d.pattern := by
  obtain ⟨c, e⟩ := d
  cases e with
  | ofNat e =>
    show (Literal.decimal? (Nat.toDigits 10 (c * Nat.pow 10 e))).map pattern = _
    rw [Literal.decimal?_whole (fun _ => isDigit_of_mem_toDigits) Nat.toDigits_ne_nil,
      Nat.ofDigitChars_ten_toDigits, Option.map_some, pattern_shift]
    rfl
  | negSucc e =>
    have hunit : 0 < Nat.pow 10 (e + 1) := Nat.pow_pos (by decide)
    have hmod := Nat.mod_lt c hunit
    show (Literal.decimal? (Nat.toDigits 10 (c / Nat.pow 10 (e + 1)) ++
      '.' :: padded (e + 1) (c % Nat.pow 10 (e + 1)))).map pattern = _
    rw [Literal.decimal?_point (fun _ => isDigit_of_mem_toDigits) Nat.toDigits_ne_nil
      (fun _ => isDigit_of_mem_padded), Nat.ofDigitChars_append, Nat.ofDigitChars_ten_toDigits,
      ofDigitChars_padded e.succ_pos hmod, length_padded e.succ_pos hmod, Nat.mul_comm,
      Nat.div_add_mod]
    rfl

theorem exists_plain_eq_cons (d : Decimal) : ∃ c cs, d.plain = c :: cs ∧ c.isDigit := by
  have hdigits : ∀ n, ∃ c cs, Nat.toDigits 10 n = c :: cs ∧ c.isDigit := fun n => by
    obtain ⟨c, cs, h⟩ := List.exists_cons_of_ne_nil (Nat.toDigits_ne_nil (n := n) (b := 10))
    exact ⟨c, cs, h, isDigit_of_mem_toDigits (h ▸ List.mem_cons_self)⟩
  obtain ⟨k, e⟩ := d
  cases e with
  | ofNat e => exact hdigits _
  | negSucc e =>
    obtain ⟨c, cs, h, hc⟩ := hdigits (k / Nat.pow 10 (e + 1))
    exact ⟨c, _, congrArg (· ++ _) h, hc⟩

theorem unsigned?_plain (d : Decimal) (negative : Bool) :
    Literal.unsigned? negative d.plain = some (Double.ofPattern negative d.pattern) := by
  obtain ⟨c, cs, h, hc⟩ := d.exists_plain_eq_cons
  have hread := d.decimal?_plain
  rw [h] at hread ⊢
  rw [Literal.unsigned?_eq hc]
  obtain ⟨e, he, hpattern⟩ := Option.map_eq_some_iff.1 hread
  rw [he, Option.map_some, hpattern]

end Decimal

namespace Number

/-- A number that its text gives back: finite, and no negative zero. -/
structure Writable (x : Float) : Prop where
  finite : Double.pattern x < Double.infinity
  zero : Double.pattern x = 0 → Double.isNegative x = false

theorem read?_format {x : Float} (h : Writable x) : Literal.read? (format x).toList = some x := by
  have hx := Double.ofPattern_pattern h.finite
  unfold format
  by_cases hzero : Double.pattern x = 0
  · rw [if_pos hzero, ← hx, h.zero hzero, hzero]
    decide +kernel
  · rw [if_neg hzero]
    have hplain := Decimal.unsigned?_plain (Decimal.shortest (Double.pattern x))
    rw [Decimal.pattern_shortest h.finite] at hplain
    unfold plainText
    simp only [if_neg (Nat.not_lt_of_lt h.finite), if_neg (Nat.ne_of_lt h.finite)]
    rw [String.toList_ofList]
    cases hsign : Double.isNegative x with
    | true =>
      rw [hsign] at hx
      rw [if_pos rfl, List.singleton_append]
      exact (hplain true).trans (congrArg some hx)
    | false =>
      rw [hsign] at hx
      obtain ⟨c, cs, hcons, hc⟩ := (Decimal.shortest (Double.pattern x)).exists_plain_eq_cons
      rw [if_neg Bool.false_ne_true, List.nil_append]
      refine Eq.trans ?_ ((hplain false).trans (congrArg some hx))
      rw [hcons]
      exact Literal.read?_of_isDigit hc

/-- The number that the text of a finite number stands for: zero has no sign there. -/
def plainZero (x : Float) : Float := if Double.pattern x = 0 then 0 else x

theorem read?_format_of_isFinite {x : Float} (hx : x.isFinite) :
    Literal.read? (format x).toList = some (plainZero x) := by
  by_cases hzero : Double.pattern x = 0
  · unfold format plainZero
    rw [if_pos hzero, if_pos hzero]
    decide +kernel
  · rw [plainZero, if_neg hzero]
    exact read?_format ⟨(Double.isFinite_iff x).1 hx, fun h => absurd h hzero⟩

end Number
end PocketCalc
