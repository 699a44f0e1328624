import PocketCalc.Proofs.Number.Readback

/-!
# Numerals

The digits of a number as they are typed and as they are written.  A numeral stays one when a
digit or a first point is added at its end and when its last character is taken away, and it
stays without superfluous zeros unless a digit follows a lone zero.  The text of a finite number
is such a numeral, with a minus sign in front if the number is negative.
-/

namespace PocketCalc

theorem exists_eq_digitChar {c : Char} (hc : c.isDigit) : ∃ n : Fin 10, c = Nat.digitChar n := by
  obtain ⟨hlow, hhigh⟩ := Char.isDigit_iff_toNat.1 hc
  change 48 ≤ c.toNat at hlow
  change c.toNat ≤ 57 at hhigh
  have hlt : c.toNat - 48 < 10 := by omega
  refine ⟨⟨c.toNat - 48, hlt⟩, Char.toNat_inj.1 ?_⟩
  show c.toNat = (Nat.digitChar (c.toNat - 48)).toNat
  rw [Nat.toNat_digitChar_of_lt_ten hlt]
  omega

theorem exists_eq_ofNat_of_lt_ten {n : UInt8} (hn : n < 10) : ∃ m : Fin 10, n = UInt8.ofNat m :=
  ⟨⟨n.toNat, UInt8.lt_iff_toNat_lt.1 hn⟩, UInt8.ofNat_toNat.symm⟩

/-- Digits, at least one, and perhaps a point with more digits after it. -/
inductive Numeral : List Char → Prop
  | whole {ds : List Char} (hne : ds ≠ []) (hds : ∀ c ∈ ds, c.isDigit) : Numeral ds
  | point {ds ps : List Char} (hne : ds ≠ []) (hds : ∀ c ∈ ds, c.isDigit)
    (hps : ∀ c ∈ ps, c.isDigit) : Numeral (ds ++ '.' :: ps)

/-- A numeral without a zero in front of another digit. -/
structure Numeral.Canonical (cs : List Char) : Prop where
  numeral : Numeral cs
  not_zero_digit : ∀ c rest, cs = '0' :: c :: rest → ¬ c.isDigit

namespace Numeral

variable {cs : List Char} {c : Char}

theorem exists_eq_cons (h : Numeral cs) : ∃ c rest, cs = c :: rest ∧ c.isDigit := by
  have hdigits : ∀ ds : List Char, ds ≠ [] → (∀ c ∈ ds, c.isDigit) →
      ∃ c rest, ds = c :: rest ∧ c.isDigit := by
    intro ds hne hds
    obtain ⟨c, rest, rfl⟩ := List.exists_cons_of_ne_nil hne
    exact ⟨c, rest, rfl, hds c List.mem_cons_self⟩
  cases h with
  | whole hne hds => exact hdigits cs hne hds
  | point hne hds _ =>
    obtain ⟨c, rest, rfl, hc⟩ := hdigits _ hne hds
    exact ⟨c, _, rfl, hc⟩

theorem ne_nil (h : Numeral cs) : cs ≠ [] := by
  obtain ⟨c, rest, rfl, -⟩ := h.exists_eq_cons
  exact List.cons_ne_nil c rest

theorem isDigit_or_point (h : Numeral cs) (hc : c ∈ cs) : c.isDigit ∨ c = '.' := by
  cases h with
  | whole _ hds => exact .inl (hds c hc)
  | point _ hds hps =>
    rcases List.mem_append.1 hc with hc | hc
    · exact .inl (hds c hc)
    · rcases List.mem_cons.1 hc with hc | hc
      · exact .inr hc
      · exact .inl (hps c hc)

theorem count_point_eq_zero (h : ∀ c ∈ cs, c.isDigit) : cs.count '.' = 0 :=
  List.count_eq_zero.2 fun hp => absurd (h _ hp) (by decide)

theorem count_point_le_one (h : Numeral cs) : cs.count '.' ≤ 1 := by
  cases h with
  | whole _ hds => rw [count_point_eq_zero hds]; omega
  | point _ hds hps =>
    have hbefore := count_point_eq_zero hds
    have hafter := count_point_eq_zero hps
    rw [List.count_append, List.count_cons_self]
    omega

/-! ## Typing and deleting at the end -/

theorem digit (hc : c.isDigit) : Numeral [c] :=
  .whole (List.cons_ne_nil c []) fun _ h => List.mem_singleton.1 h ▸ hc

theorem append_digit (h : Numeral cs) (hc : c.isDigit) : Numeral (cs ++ [c]) := by
  have hmem : ∀ {ds : List Char}, (∀ x ∈ ds, x.isDigit) → ∀ x ∈ ds ++ [c], x.isDigit := by
    intro ds hds x hx
    rcases List.mem_append.1 hx with hx | hx
    · exact hds x hx
    · exact List.mem_singleton.1 hx ▸ hc
  cases h with
  | whole hne hds => exact .whole (List.append_ne_nil_of_left_ne_nil hne _) (hmem hds)
  | point hne hds hps =>
    rw [List.append_assoc]
    exact .point hne hds (hmem hps)

theorem append_point (h : Numeral cs) (hp : '.' ∉ cs) : Numeral (cs ++ ['.']) := by
  cases h with
  | whole hne hds => exact .point hne hds fun x hx => absurd hx List.not_mem_nil
  | point _ _ _ => exact absurd (List.mem_append_right _ List.mem_cons_self) hp

theorem of_append_singleton (h : Numeral (cs ++ [c])) (hne : cs ≠ []) : Numeral cs := by
  generalize hs : cs ++ [c] = s at h
  cases h with
  | whole _ hds =>
    refine .whole hne fun x hx => hds x ?_
    rw [← hs]
    exact List.mem_append_left _ hx
  | @point ds ps hne' hds hps =>
    rcases List.eq_nil_or_concat ps with rfl | ⟨ps', p, rfl⟩
    · obtain ⟨rfl, -⟩ := List.append_inj' hs rfl
      exact .whole hne' hds
    · rw [List.concat_eq_append, ← List.cons_append, ← List.append_assoc] at hs
      obtain ⟨rfl, -⟩ := List.append_inj' hs rfl
      exact .point hne' hds fun x hx => hps x (by simp [hx])

theorem point_not_mem_of_append (h : Numeral (cs ++ ['.'])) : '.' ∉ cs := by
  intro hp
  have hcount := h.count_point_le_one
  rw [List.count_append, List.count_singleton_self] at hcount
  have := List.count_pos_iff.2 hp
  omega

/-! ## Reading -/

theorem isSome_decimal? (h : Numeral cs) : (Literal.decimal? cs).isSome := by
  cases h with
  | whole hne hds => rw [Literal.decimal?_whole hds hne, Option.isSome_some]
  | point hne hds hps => rw [Literal.decimal?_point hds hne hps, Option.isSome_some]

theorem isSome_unsigned? (h : Numeral cs) (negative : Bool) :
    (Literal.unsigned? negative cs).isSome := by
  have hdecimal := h.isSome_decimal?
  obtain ⟨c, rest, rfl, hc⟩ := h.exists_eq_cons
  rwa [Literal.unsigned?_eq hc, Option.isSome_map]

/-- A numeral can be read. -/
theorem isSome_read? (h : Numeral cs) : (Literal.read? cs).isSome := by
  have hunsigned := h.isSome_unsigned? false
  obtain ⟨c, rest, rfl, hc⟩ := h.exists_eq_cons
  rwa [Literal.read?_of_isDigit hc]

namespace Canonical

theorem digit (hc : c.isDigit) : Canonical [c] where
  numeral := .digit hc
  not_zero_digit _ _ h := nomatch h

/-- What follows a lone zero in a canonical numeral does not begin with a digit. -/
theorem append {tail : List Char} (h : Canonical cs) (hnumeral : Numeral (cs ++ tail))
    (htail : cs = ['0'] → ∀ c rest, tail = c :: rest → ¬ c.isDigit) :
    Canonical (cs ++ tail) where
  numeral := hnumeral
  not_zero_digit d rest hs := by
    match cs, h, htail, hs with
    | [], h, _, _ => exact absurd rfl h.numeral.ne_nil
    | [x], _, htail, hs =>
      obtain ⟨rfl, htl⟩ := List.cons.inj hs
      exact htail rfl d rest htl
    | x :: y :: zs, h, _, hs =>
      cases hs
      exact h.not_zero_digit _ zs rfl

theorem append_digit (h : Canonical cs) (hc : c.isDigit) (hzero : cs ≠ ['0']) :
    Canonical (cs ++ [c]) :=
  h.append (h.numeral.append_digit hc) fun hcs => absurd hcs hzero

theorem append_point (h : Canonical cs) (hp : '.' ∉ cs) : Canonical (cs ++ ['.']) := by
  refine h.append (h.numeral.append_point hp) fun _ c rest htail => ?_
  cases htail
  decide

theorem of_append_singleton (h : Canonical (cs ++ [c])) (hne : cs ≠ []) : Canonical cs where
  numeral := h.numeral.of_append_singleton hne
  not_zero_digit d rest hs := h.not_zero_digit d (rest ++ [c]) (by rw [hs]; rfl)

theorem ne_zero_of_append_digit (h : Canonical (cs ++ [c])) (hc : c.isDigit) : cs ≠ ['0'] := by
  rintro rfl
  exact h.not_zero_digit c [] rfl hc

end Canonical
end Numeral

/-! ## The text of a number -/

open Numeral (Canonical)

theorem Decimal.not_zero_digit_toDigits {n : Nat} {c : Char} {rest : List Char} :
    Nat.toDigits 10 n ≠ '0' :: c :: rest := by
  induction n using Nat.strongRecOn generalizing c rest with
  | ind n ih =>
    intro h
    rcases Nat.lt_or_ge n 10 with hlt | hge
    · rw [Nat.toDigits_of_lt_base hlt] at h
      exact List.cons_ne_nil c rest (List.cons.inj h).2.symm
    · -- All but the last digit are the digits of a tenth, which is positive.
      rw [Nat.toDigits_of_base_le (by decide) hge] at h
      match hfront : Nat.toDigits 10 (n / 10), h with
      | [], _ => exact Nat.toDigits_ne_nil hfront
      | [x], h =>
        cases h
        have hone : (Nat.toDigits 10 (n / 10)).length ≤ 1 := by rw [hfront]; exact Nat.le_refl 1
        have hlt : n / 10 < 10 := (Nat.length_toDigits_le_iff (by decide) (by decide)).1 hone
        rw [Nat.toDigits_of_lt_base hlt] at hfront
        have hzero := Nat.digitChar_eq_zero.1 (List.cons.inj hfront).1
        omega
      | x :: y :: zs, h =>
        cases h
        exact ih (n / 10) (by omega) hfront

theorem Decimal.canonical_toDigits (n : Nat) : Canonical (Nat.toDigits 10 n) where
  numeral := .whole Nat.toDigits_ne_nil fun _ => isDigit_of_mem_toDigits
  not_zero_digit _ _ h := absurd h not_zero_digit_toDigits

theorem Decimal.canonical_plain (d : Decimal) : Canonical d.plain := by
  obtain ⟨k, e⟩ := d
  cases e with
  | ofNat e => exact canonical_toDigits _
  | negSucc e =>
    refine (canonical_toDigits (k / Nat.pow 10 (e + 1))).append ?_ fun _ c rest htail => ?_
    · exact .point Nat.toDigits_ne_nil (fun _ => isDigit_of_mem_toDigits)
        fun _ => isDigit_of_mem_padded
    · cases htail
      decide

theorem Number.canonical_format {x : Float} (hx : x.isFinite) :
    Canonical (format x).toList ∨ ∃ cs, (format x).toList = '-' :: cs ∧ Canonical cs := by
  have hfinite := (Double.isFinite_iff x).1 hx
  have hplain := Decimal.canonical_plain (Decimal.shortest (Double.pattern x))
  unfold format
  by_cases hzero : Double.pattern x = 0
  · rw [if_pos hzero]
    exact .inl (.digit (by decide))
  · rw [if_neg hzero]
    unfold plainText
    simp only [if_neg (Nat.not_lt_of_lt hfinite), if_neg (Nat.ne_of_lt hfinite)]
    rw [String.toList_ofList]
    cases Double.isNegative x with
    | true => exact .inr ⟨_, rfl, hplain⟩
    | false => exact .inl hplain

end PocketCalc
