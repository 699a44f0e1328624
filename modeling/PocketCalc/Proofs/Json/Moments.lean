import PocketCalc.Proofs.Number.Readback
import PocketCalc.Timestamp

/-!
# Moments read back

Every field of a moment is written with digits that end where the next mark begins, so the written
form is taken apart again field by field (`ofChars?_chars`).
-/

namespace PocketCalc

theorem daysInMonth_le (year : Int) (month : Nat) : daysInMonth year month ≤ 31 := by
  unfold daysInMonth
  split
  · split <;> omega
  all_goals omega

theorem month_le_of_daysInMonth {year : Int} {month : Nat} (h : 1 ≤ daysInMonth year month) :
    month ≤ 12 := by
  unfold daysInMonth at h
  split at h <;> omega

namespace Timestamp

variable {ds rest : List Char}

/-- Digits are read up to the greatest number of them, or up to something else. -/
theorem digits?_append {least most : Nat} (hds : ∀ c ∈ ds, c.isDigit) (hleast : least ≤ ds.length)
    (hmost : ds.length ≤ most) (hend : ds.length = most ∨ rest.head?.any Char.isDigit = false) :
    digits? least most (ds ++ rest) = some (ds, rest) := by
  have htake : ((ds ++ rest).takeWhile Char.isDigit).take most = ds := by
    rcases hend with hend | hend
    · rw [List.takeWhile_append_of_pos hds, List.take_left' hend]
    · rw [(Literal.span_digits hds rest hend).1, List.take_of_length_le hmost]
  simp only [digits?, htake, if_pos hleast, List.drop_left]

theorem length_le_padded (width n : Nat) : width ≤ (Decimal.padded width n).length := by
  unfold Decimal.padded
  rw [List.length_append, List.length_replicate]
  omega

theorem digits?_padded {width n : Nat} (hw : 0 < width) (hn : n < Nat.pow 10 width) :
    digits? width width (Decimal.padded width n ++ rest) = some (Decimal.padded width n, rest) :=
  have hlength := Decimal.length_padded hw hn
  digits?_append (fun _ => Decimal.isDigit_of_mem_padded) (Nat.le_of_eq hlength.symm)
    (Nat.le_of_eq hlength) (.inl hlength)

theorem field?_padded {mark : Char} {n : Nat} (hn : n < 100) :
    field? mark (mark :: Decimal.padded 2 n ++ rest) = some (n, rest) := by
  rw [List.cons_append, field?, if_pos rfl, digits?_padded (by decide) hn]
  exact congrArg (fun n => some (n, rest)) (Decimal.ofDigitChars_padded_zero 2 n)

/-! ## The year -/

theorem digits?_signed {n : Nat} (hrest : rest.head?.any Char.isDigit = false) :
    digits? 1 (Decimal.padded 4 n ++ rest).length (Decimal.padded 4 n ++ rest) =
      some (Decimal.padded 4 n, rest) := by
  have hlength := length_le_padded 4 n
  refine digits?_append (fun _ => Decimal.isDigit_of_mem_padded) (by omega) ?_ (.inr hrest)
  rw [List.length_append]
  omega

theorem year?_of_isDigit {c : Char} {cs : List Char} (hc : c.isDigit) :
    year? (c :: cs) =
      (digits? 4 4 (c :: cs)).map fun (ds, rest) => (Nat.ofDigitChars 10 ds 0, rest) := by
  unfold year?
  split
  · next h => obtain ⟨rfl, -⟩ := List.cons.inj h; exact absurd hc (by decide)
  · next h => obtain ⟨rfl, -⟩ := List.cons.inj h; exact absurd hc (by decide)
  · rfl

theorem year?_yearChars {year : Int} (hrest : rest.head?.any Char.isDigit = false) :
    year? (yearChars year ++ rest) = some (year, rest) := by
  have hvalue := Decimal.ofDigitChars_padded_zero 4 year.natAbs
  unfold yearChars
  by_cases hneg : year < 0
  · have hyear : -(Nat.ofDigitChars 10 (Decimal.padded 4 year.natAbs) 0 : Int) = year := by omega
    rw [if_pos hneg, List.cons_append, year?, digits?_signed hrest]
    exact congrArg (fun year => some (year, rest)) hyear
  · have hyear : (Nat.ofDigitChars 10 (Decimal.padded 4 year.natAbs) 0 : Int) = year := by omega
    rw [if_neg hneg]
    by_cases hlarge : year < 10000
    · have hread : digits? 4 4 (Decimal.padded 4 year.natAbs ++ rest) = _ :=
        digits?_padded (by decide) (show year.natAbs < 10000 by omega)
      obtain ⟨c, cs, hcons⟩ := List.exists_cons_of_length_pos
        (Nat.lt_of_lt_of_le (by decide) (length_le_padded 4 year.natAbs))
      have hc : c.isDigit := Decimal.isDigit_of_mem_padded (hcons ▸ List.mem_cons_self)
      rw [if_pos hlarge]
      rw [hcons] at hread hyear ⊢
      rw [List.cons_append] at hread ⊢
      rw [year?_of_isDigit hc, hread]
      exact congrArg (fun year => some (year, rest)) hyear
    · rw [if_neg hlarge, List.cons_append, year?, digits?_signed hrest]
      exact congrArg (fun year => some (year, rest)) hyear

/-! ## The fraction of a second -/

theorem nanos?_point {width n nanos : Nat} (hw : 0 < width) (hw' : width ≤ 9)
    (hn : n < Nat.pow 10 width) (hnanos : n * Nat.pow 10 (9 - width) = nanos)
    (hrest : rest.head?.any Char.isDigit = false) :
    nanos? ('.' :: Decimal.padded width n ++ rest) = some (nanos, rest) := by
  have hlength := Decimal.length_padded hw hn
  have hread : digits? 1 9 (Decimal.padded width n ++ rest) = some (Decimal.padded width n, rest) :=
    digits?_append (fun _ => Decimal.isDigit_of_mem_padded) (by omega) (by omega) (.inr hrest)
  have hdrop : rest.dropWhile Char.isDigit = rest :=
    (Literal.span_digits (List.forall_mem_nil _) rest hrest).2
  rw [List.cons_append, nanos?, hread, Option.map_some]
  dsimp only
  rw [Decimal.ofDigitChars_padded_zero, hlength, hnanos, hdrop]

theorem nanos?_fractionChars {nanos : Nat} (hn : nanos < 1000000000) :
    nanos? (fractionChars nanos ++ ['Z']) = some (nanos, ['Z']) := by
  unfold fractionChars
  split
  · next hzero =>
    rw [hzero]
    rfl
  · split
    · next hmilli =>
      have hn : nanos / 1000000 < 1000 := by omega
      have hscaled : nanos / 1000000 * 1000000 = nanos := by omega
      exact nanos?_point (by decide) (by decide) hn hscaled rfl
    · split
      · next hmicro =>
        have hn : nanos / 1000 < 1000000 := by omega
        have hscaled : nanos / 1000 * 1000 = nanos := by omega
        exact nanos?_point (by decide) (by decide) hn hscaled rfl
      · exact nanos?_point (by decide) (by decide) hn (Nat.mul_one nanos) rfl

/-! ## The moment -/

/-- The written form of a moment gives the moment back. -/
theorem ofChars?_chars (t : Timestamp) : ofChars? (t.chars ++ ['Z']) = some t := by
  obtain ⟨year, month, day, hour, minute, ⟨second, nanos⟩, hvalid⟩ := t
  have hmonth := month_le_of_daysInMonth (Nat.le_trans hvalid.1.2.1 hvalid.1.2.2)
  have hday := Nat.le_trans hvalid.1.2.2 (daysInMonth_le year month)
  have hhour := hvalid.2.1.1
  have hminute := hvalid.2.1.2
  have hsecond : second ≤ 60 := hvalid.2.2.1
  simp only [ofChars?, chars, List.append_assoc, Option.bind_eq_bind]
  rw [year?_yearChars, Option.bind_some]
  · simp only [Option.bind_some, field?_padded (show month < 100 by omega),
      field?_padded (show day < 100 by omega), field?_padded (show hour < 100 by omega),
      field?_padded (show minute < 100 by omega), field?_padded (show second < 100 by omega),
      nanos?_fractionChars hvalid.2.2.2]
    exact dif_pos hvalid
  · rfl

end Timestamp
end PocketCalc
