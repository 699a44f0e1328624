import PocketCalc.Json.Basic
import PocketCalc.Proofs.Number.Readback

/-!
# Strings and numbers of JSON texts

Readers of the strings and the numbers in a JSON text.  Each of them reads what the writer has put
in front of the rest of the text and leaves the rest.  A character is read whatever way it was
escaped (`stringChar?_escape`), and a number whatever way it was laid out (`unsigned?_layOut`).
-/

namespace PocketCalc
namespace Json
namespace Reader

/-! ## Strings -/

/-- What a character after a backslash stands for. -/
def unescape? : Char → Option Char
  | '"' => some '"'
  | '\\' => some '\\'
  | '/' => some '/'
  | 'b' => some (Char.ofNat 0x08)
  | 'f' => some (Char.ofNat 0x0C)
  | 'n' => some '\n'
  | 'r' => some '\r'
  | 't' => some '\t'
  | _ => none

/-- The value of a hexadecimal digit. -/
def hexDigit? (c : Char) : Option Nat :=
  if c.isDigit then some (c.toNat - '0'.toNat)
  else if 'a' ≤ c ∧ c ≤ 'f' then some (c.toNat - 'a'.toNat + 10)
  else if 'A' ≤ c ∧ c ≤ 'F' then some (c.toNat - 'A'.toNat + 10)
  else none

/-- Reads a character inside quotes. -/
def stringChar? : List Char → Option (Char × List Char)
  | '\\' :: 'u' :: a :: b :: c :: d :: rest => do
    let code := (((← hexDigit? a) * 16 + (← hexDigit? b)) * 16 + (← hexDigit? c)) * 16 +
      (← hexDigit? d)
    if code.isValidChar then return (Char.ofNat code, rest) else none
  | '\\' :: c :: rest => (unescape? c).map (·, rest)
  | c :: rest => if c = '\\' ∨ c = '"' ∨ c.toNat < 0x20 then none else some (c, rest)
  | [] => none

/-- Reads a string up to the quote that closes it. -/
def stringTail? : Nat → List Char → Option (List Char × List Char)
  | 0, _ => none
  | fuel + 1, cs =>
    match cs with
    | '"' :: rest => some ([], rest)
    | cs => do
      let (c, cs) ← stringChar? cs
      let (s, rest) ← stringTail? fuel cs
      return (c :: s, rest)

theorem hexDigit?_digitChar {n : Nat} (hn : n < 16) : hexDigit? (Nat.digitChar n) = some n := by
  have hall : ∀ m : Fin 16, hexDigit? (Nat.digitChar m) = some m.val := by decide
  exact hall ⟨n, hn⟩

theorem stringChar?_plain {c : Char} {rest : List Char} (h : c ≠ '\\') :
    stringChar? (c :: rest) =
      if c = '\\' ∨ c = '"' ∨ c.toNat < 0x20 then none else some (c, rest) := by
  unfold stringChar?
  split
  · next heq => exact absurd (List.cons.inj heq).1 h
  · next heq => exact absurd (List.cons.inj heq).1 h
  · next heq => obtain ⟨rfl, rfl⟩ := List.cons.inj heq; rfl
  · next heq => cases heq

theorem stringChar?_control {c : Char} {rest : List Char} (h : c.toNat < 0x20) :
    stringChar? ('\\' :: 'u' :: '0' :: '0' :: Nat.digitChar (c.toNat / 16) ::
      Nat.digitChar (c.toNat % 16) :: rest) = some (c, rest) := by
  have hzero : hexDigit? '0' = some 0 := by decide
  have hcode : ((0 * 16 + 0) * 16 + c.toNat / 16) * 16 + c.toNat % 16 = c.toNat := by omega
  rw [stringChar?, hzero, hexDigit?_digitChar (by omega), hexDigit?_digitChar (by omega)]
  simp only [Option.bind_eq_bind, Option.bind_some, hcode]
  have hvalid : c.toNat.isValidChar := c.valid
  rw [if_pos hvalid, Char.ofNat_toNat]
  rfl

/-- An escaped character is read as that character. -/
theorem stringChar?_escape (c : Char) (rest : List Char) :
    stringChar? (escape c ++ rest) = some (c, rest) := by
  have hcode : ∀ n, c.toNat = n → c = Char.ofNat n := fun n hn => hn ▸ (Char.ofNat_toNat c).symm
  unfold escape
  -- The cases stand in the order in which the writer tries them.
  by_cases hquote : c = '"' ∨ c = '\\'
  · rw [if_pos hquote]
    rcases hquote with rfl | rfl <;> rfl
  rw [if_neg hquote]
  by_cases hn : c = '\n'
  · rw [if_pos hn, hn]
    rfl
  rw [if_neg hn]
  by_cases hr : c = '\r'
  · rw [if_pos hr, hr]
    rfl
  rw [if_neg hr]
  by_cases ht : c = '\t'
  · rw [if_pos ht, ht]
    rfl
  rw [if_neg ht]
  by_cases hb : c.toNat = 0x08
  · rw [if_pos hb, hcode _ hb]
    rfl
  rw [if_neg hb]
  by_cases hf : c.toNat = 0x0C
  · rw [if_pos hf, hcode _ hf]
    rfl
  rw [if_neg hf]
  by_cases hcontrol : c.toNat < 0x20
  · rw [if_pos hcontrol]
    exact stringChar?_control hcontrol
  · rw [if_neg hcontrol]
    obtain ⟨hquote, hbackslash⟩ := not_or.1 hquote
    rw [List.singleton_append, stringChar?_plain hbackslash,
      if_neg (not_or.2 ⟨hbackslash, not_or.2 ⟨hquote, hcontrol⟩⟩)]

theorem stringTail?_of_stringChar? {c : Char} {s cs cs' rest : List Char} {fuel : Nat}
    (hc : stringChar? cs = some (c, cs')) (hs : stringTail? fuel cs' = some (s, rest)) :
    stringTail? (fuel + 1) cs = some (c :: s, rest) := by
  -- The quote that closes a string is none of its characters.
  have hquote : ∀ tail, cs ≠ '"' :: tail := by
    rintro tail rfl
    cases hc
  rw [stringTail?, hc, Option.bind_eq_bind, Option.bind_some]
  · dsimp only
    rw [hs]
    rfl
  · exact hquote

theorem stringTail?_escape {fuel : Nat} (s rest : List Char) (h : s.length < fuel) :
    stringTail? fuel (s.flatMap escape ++ '"' :: rest) = some (s, rest) := by
  induction s generalizing fuel with
  | nil =>
    obtain ⟨fuel, rfl⟩ := Nat.exists_eq_add_of_lt h
    rfl
  | cons c s ih =>
    obtain ⟨fuel, rfl⟩ := Nat.exists_eq_add_one_of_ne_zero (Nat.ne_zero_of_lt h)
    rw [List.flatMap_cons, List.append_assoc]
    exact stringTail?_of_stringChar? (stringChar?_escape c _) (ih (Nat.lt_of_succ_lt_succ h))

theorem escape_ne_nil (c : Char) : escape c ≠ [] := by
  intro h
  have hread := stringChar?_escape c []
  rw [h] at hread
  cases hread

theorem length_le_flatMap_escape (s : List Char) : s.length ≤ (s.flatMap escape).length := by
  induction s with
  | nil => exact Nat.le_refl 0
  | cons c s ih =>
    have hpos := List.length_pos_iff.2 (escape_ne_nil c)
    rw [List.flatMap_cons, List.length_append, List.length_cons]
    omega

theorem stringTail?_quoted (s : String) (rest : List Char) {fuel : Nat}
    (h : (quoted s).length ≤ fuel + 1) :
    stringTail? fuel (s.toList.flatMap escape ++ '"' :: rest) = some (s.toList, rest) := by
  have hlength := length_le_flatMap_escape s.toList
  refine stringTail?_escape _ _ ?_
  unfold quoted at h
  rw [List.length_append, List.length_cons, List.length_singleton] at h
  omega

/-! ## Numbers -/

/-- Reads a sign, if there is one. -/
def sign : List Char → Bool × List Char
  | '-' :: cs => (true, cs)
  | cs => (false, cs)

/-- Reads digits. -/
def digits (cs : List Char) : List Char × List Char :=
  (cs.takeWhile Char.isDigit, cs.dropWhile Char.isDigit)

/-- Reads what may follow the digits of a number: a power of ten. -/
def power : List Char → Int × List Char
  | 'e' :: cs =>
    let (negative, cs) := sign cs
    let (ds, rest) := digits cs
    let e : Int := Nat.ofDigitChars 10 ds 0
    (if negative then -e else e, rest)
  | cs => (0, cs)

/-- Reads a number after its sign.  It is whole if it has neither a point nor a power of ten. -/
def unsigned? (negative : Bool) (cs : List Char) : Option (Json × List Char) :=
  let (whole, rest) := digits cs
  if whole.isEmpty then none
  else if rest.head?.any fun c => c = '.' || c = 'e' then
    let (places, rest) := Literal.fraction rest
    let (e, rest) := power rest
    let d : Decimal := ⟨Nat.ofDigitChars 10 (whole ++ places) 0, e - places.length⟩
    some (real (Double.ofPattern negative d.pattern), rest)
  else
    let n : Int := Nat.ofDigitChars 10 whole 0
    some (integer (if negative then -n else n), rest)

/-- Reads a number. -/
def number? (cs : List Char) : Option (Json × List Char) :=
  let (negative, cs) := sign cs
  unsigned? negative cs

/-- What comes next does not belong to a number. -/
structure Ends (rest : List Char) : Prop where
  digit : rest.head?.any Char.isDigit = false
  mark : (rest.head?.any fun c => c = '.' || c = 'e') = false

theorem ends_nil : Ends [] := ⟨rfl, rfl⟩

variable {ds ps rest : List Char} {negative : Bool}

theorem digits_append (hds : ∀ c ∈ ds, c.isDigit) (hrest : rest.head?.any Char.isDigit = false) :
    digits (ds ++ rest) = (ds, rest) :=
  have hspan := Literal.span_digits hds rest hrest
  Prod.ext hspan.1 hspan.2

theorem sign_append {cs : List Char} (h : ∀ tail, cs ≠ '-' :: tail) :
    sign ((if negative then ['-'] else []) ++ cs) = (negative, cs) := by
  cases negative with
  | true => rfl
  | false =>
    show sign cs = _
    unfold sign
    split
    · next tail => exact absurd rfl (h tail)
    · rfl

theorem toDigits_ne_minus (n : Nat) (tail : List Char) :
    Nat.toDigits 10 n ++ rest ≠ '-' :: tail := by
  obtain ⟨c, cs, hcons⟩ := List.exists_cons_of_ne_nil (Nat.toDigits_ne_nil (n := n) (b := 10))
  have hc : c.isDigit := Decimal.isDigit_of_mem_toDigits (hcons ▸ List.mem_cons_self)
  rw [hcons, List.cons_append]
  intro h
  obtain ⟨rfl, -⟩ := List.cons.inj h
  exact absurd hc (by decide)

theorem toList_toString (n : Int) :
    (toString n).toList =
      (if decide (n < 0) then ['-'] else []) ++ Nat.toDigits 10 n.natAbs := by
  cases n with
  | ofNat m => exact Nat.toList_repr
  | negSucc m =>
    show ("-" ++ (m + 1).repr).toList = _
    rw [String.toList_append, Nat.toList_repr, if_pos (decide_eq_true (Int.negSucc_lt_zero m))]
    rfl

/-- The sign and the digits of a whole number. -/
theorem sign_toString (n : Int) :
    sign ((toString n).toList ++ rest) = (decide (n < 0), Nat.toDigits 10 n.natAbs ++ rest) := by
  rw [toList_toString, List.append_assoc, sign_append (toDigits_ne_minus _)]

theorem signed_natAbs (n : Int) : (if decide (n < 0) then -(n.natAbs : Int) else n.natAbs) = n := by
  simp only [decide_eq_true_eq]
  split <;> omega

theorem number?_integer (n : Int) (hrest : Ends rest) :
    number? ((toString n).toList ++ rest) = some (integer n, rest) := by
  have hdigits := digits_append (fun _ => Decimal.isDigit_of_mem_toDigits (n := n.natAbs))
    hrest.digit
  have hempty : (Nat.toDigits 10 n.natAbs).isEmpty = false :=
    List.isEmpty_eq_false_iff.2 Nat.toDigits_ne_nil
  simp only [number?, sign_toString, unsigned?, hdigits, hempty, hrest.mark, Bool.false_eq_true,
    if_false, Nat.ofDigitChars_ten_toDigits, signed_natAbs]

/-! ## Numbers with places -/

theorem power_of_ends (hrest : Ends rest) : power rest = (0, rest) := by
  unfold power
  split
  · cases hrest.mark
  · rfl

theorem power_integer (n : Int) (hrest : Ends rest) :
    power ('e' :: (toString n).toList ++ rest) = (n, rest) := by
  have hdigits := digits_append (fun _ => Decimal.isDigit_of_mem_toDigits (n := n.natAbs))
    hrest.digit
  simp only [List.cons_append, power, sign_toString, hdigits, Nat.ofDigitChars_ten_toDigits,
    signed_natAbs]

/-- The double nearest to a decimal, with a sign. -/
def signed (negative : Bool) (d : Decimal) : Json := real (Double.ofPattern negative d.pattern)

section
variable (negative : Bool) {tail : List Char} {e : Int}

/-- Digits with places after a point, and perhaps a power of ten. -/
theorem unsigned?_point (hds : ∀ c ∈ ds, c.isDigit) (hne : ds ≠ []) (hps : ∀ c ∈ ps, c.isDigit)
    (hpower : power tail = (e, rest)) (htail : tail.head?.any Char.isDigit = false) :
    unsigned? negative (ds ++ '.' :: (ps ++ tail)) =
      some (signed negative ⟨Nat.ofDigitChars 10 (ds ++ ps) 0, e - ps.length⟩, rest) := by
  have hdigits : digits (ds ++ '.' :: (ps ++ tail)) = (ds, '.' :: (ps ++ tail)) :=
    digits_append hds rfl
  have hempty : ds.isEmpty = false := List.isEmpty_eq_false_iff.2 hne
  have hfraction : Literal.fraction ('.' :: (ps ++ tail)) = (ps, tail) := digits_append hps htail
  simp only [unsigned?, hdigits, hempty, hfraction, hpower]
  rfl

/-- Digits with a power of ten. -/
theorem unsigned?_power (hds : ∀ c ∈ ds, c.isDigit) (hne : ds ≠ [])
    (hpower : power ('e' :: tail) = (e, rest)) :
    unsigned? negative (ds ++ 'e' :: tail) =
      some (signed negative ⟨Nat.ofDigitChars 10 ds 0, e⟩, rest) := by
  have hdigits : digits (ds ++ 'e' :: tail) = (ds, 'e' :: tail) := digits_append hds rfl
  have hempty : ds.isEmpty = false := List.isEmpty_eq_false_iff.2 hne
  have hfraction : Literal.fraction ('e' :: tail) = ([], 'e' :: tail) := rfl
  have hexponent : e - ([] : List Char).length = e := Int.sub_zero e
  simp only [unsigned?, hdigits, hempty, hfraction, hpower, List.append_nil, hexponent]
  rfl

end

/-! ## The ways to lay out a number -/

theorem pattern_tenths (c : Nat) : Decimal.pattern ⟨c * 10, -1⟩ = Decimal.pattern ⟨c, 0⟩ := by
  show Double.nearest (c * 10 * Double.one) 10 = Double.nearest (c * 1 * Double.one) 1
  have hscale := Double.nearest_mul_mul (c * Double.one) 1 (show 0 < 10 by decide)
  rw [Nat.one_mul] at hscale
  rw [Nat.mul_right_comm, hscale, Nat.mul_one]

theorem isDigit_zero : ∀ c ∈ ['0'], c.isDigit := List.forall_mem_singleton.2 (by decide)

section
variable (negative : Bool) (hds : ∀ c ∈ ds, c.isDigit) (hne : ds ≠ [])
include hds hne

theorem unsigned?_zeros (e : Nat) (hrest : Ends rest) :
    unsigned? negative ((ds ++ List.replicate e '0') ++ '.' :: (['0'] ++ rest)) =
      some (signed negative ⟨Nat.ofDigitChars 10 ds 0, e⟩, rest) := by
  have hvalue : Nat.ofDigitChars 10 ((ds ++ List.replicate e '0') ++ ['0']) 0 =
      Nat.ofDigitChars 10 ds 0 * Nat.pow 10 e * 10 := by
    rw [Nat.ofDigitChars_append, Nat.ofDigitChars_append, Nat.ofDigitChars_replicate_zero]
    exact (Nat.mul_comm 10 _).trans (congrArg (· * 10) (Nat.mul_comm _ _))
  have hall : ∀ c ∈ ds ++ List.replicate e '0', c.isDigit :=
    List.forall_mem_append.2 ⟨hds, fun _ => Decimal.isDigit_of_mem_zeros⟩
  have hpattern := (pattern_tenths _).trans (Decimal.pattern_shift (Nat.ofDigitChars 10 ds 0) e)
  rw [unsigned?_point negative hall (List.append_ne_nil_of_left_ne_nil hne _) isDigit_zero
    (power_of_ends hrest) hrest.digit, hvalue]
  exact congrArg (fun p => some (real (Double.ofPattern negative p), rest)) hpattern

theorem unsigned?_split {n : Nat} (hn : 0 < n) (hrest : Ends rest) :
    unsigned? negative (ds.take n ++ '.' :: (ds.drop n ++ rest)) =
      some (signed negative ⟨Nat.ofDigitChars 10 ds 0, -(ds.length - n : Nat)⟩, rest) := by
  have htake : ds.take n ≠ [] := by
    rw [ne_eq, List.take_eq_nil_iff, not_or]
    exact ⟨Nat.ne_of_gt hn, hne⟩
  rw [unsigned?_point negative (fun c hc => hds c (List.mem_of_mem_take hc)) htake
    (fun c hc => hds c (List.mem_of_mem_drop hc)) (power_of_ends hrest) hrest.digit,
    List.take_append_drop, List.length_drop, Int.zero_sub]

omit hne in
theorem unsigned?_leading (n : Nat) (hrest : Ends rest) :
    unsigned? negative (['0'] ++ '.' :: ((List.replicate n '0' ++ ds) ++ rest)) =
      some (signed negative ⟨Nat.ofDigitChars 10 ds 0, -(n + ds.length : Nat)⟩, rest) := by
  have hvalue : Nat.ofDigitChars 10 (['0'] ++ (List.replicate n '0' ++ ds)) 0 =
      Nat.ofDigitChars 10 ds 0 := by
    rw [Nat.ofDigitChars_append, Nat.ofDigitChars_append]
    exact congrArg (Nat.ofDigitChars 10 ds) Nat.ofDigitChars_replicate_zero
  have hall : ∀ c ∈ List.replicate n '0' ++ ds, c.isDigit :=
    List.forall_mem_append.2 ⟨fun _ => Decimal.isDigit_of_mem_zeros, hds⟩
  rw [unsigned?_point negative isDigit_zero (List.cons_ne_nil _ _) hall (power_of_ends hrest)
    hrest.digit, hvalue, List.length_append, List.length_replicate, Int.zero_sub]

theorem unsigned?_scientific (e : Int) (hrest : Ends rest) :
    unsigned? negative (ds.take 1 ++ (if (ds.drop 1).isEmpty then [] else '.' :: ds.drop 1) ++
        'e' :: (toString e).toList ++ rest) =
      some (signed negative ⟨Nat.ofDigitChars 10 ds 0, e - (ds.length - 1)⟩, rest) := by
  have hpower := power_integer e hrest
  obtain ⟨d, places, rfl⟩ := List.exists_cons_of_ne_nil hne
  obtain ⟨hd, hplaces⟩ := List.forall_mem_cons.1 hds
  have hone : ∀ c ∈ [d], c.isDigit := fun c hc => List.mem_singleton.1 hc ▸ hd
  cases places with
  | nil =>
    have hexponent : e - (([d] : List Char).length - 1) = e := Int.sub_zero e
    rw [hexponent]
    exact unsigned?_power negative hone (List.cons_ne_nil d []) hpower
  | cons p places =>
    have hexponent : e - ((d :: p :: places).length - 1) = e - (p :: places).length := by
      rw [List.length_cons]
      omega
    rw [hexponent, List.append_assoc, List.append_assoc]
    exact unsigned?_point negative hone (List.cons_ne_nil d []) hplaces hpower rfl

/-- The digits of a decimal, laid out in any way, are read as its nearest double. -/
theorem unsigned?_layOut (exponent : Int) (hrest : Ends rest) :
    unsigned? negative (layOut ds exponent ++ rest) =
      some (signed negative ⟨Nat.ofDigitChars 10 ds 0, exponent⟩, rest) := by
  unfold layOut
  dsimp only
  split
  · next hwhole =>
    obtain ⟨e, rfl⟩ := Int.eq_ofNat_of_zero_le hwhole.1
    rw [List.append_assoc]
    exact unsigned?_zeros negative hds hne e hrest
  · split
    · next hnotWhole hsplit =>
      have hexponent : exponent = -(ds.length - (ds.length + exponent).toNat : Nat) := by omega
      rw [List.append_assoc, List.cons_append, unsigned?_split negative hds hne (by omega) hrest,
        ← hexponent]
    · split
      · next hleading =>
        have hexponent : exponent = -((-(ds.length + exponent)).toNat + ds.length : Nat) := by omega
        have hread := unsigned?_leading negative hds (-(ds.length + exponent)).toNat hrest
        rw [← hexponent] at hread
        exact hread
      · have hexponent : exponent = ds.length + exponent - 1 - (ds.length - 1) := by omega
        have hread := unsigned?_scientific negative hds hne (ds.length + exponent - 1) hrest
        rw [← hexponent] at hread
        exact hread

end

/-- A finite number is given back by its text, with its sign. -/
theorem number?_real {x : Float} (hx : x.isFinite) (hrest : Ends rest) :
    number? (realChars x ++ rest) = some (real x, rest) := by
  have hfinite := (Double.isFinite_iff x).1 hx
  let d := Decimal.shortest (Double.pattern x)
  have hdigits : ∀ c ∈ Nat.toDigits 10 d.coefficient, c.isDigit :=
    fun _ => Decimal.isDigit_of_mem_toDigits
  have hread := unsigned?_layOut (Double.isNegative x) hdigits Nat.toDigits_ne_nil d.exponent hrest
  rw [Nat.ofDigitChars_ten_toDigits, signed, Decimal.pattern_shortest hfinite,
    Double.ofPattern_pattern hfinite] at hread
  -- The digits can be read without a sign, so they do not begin with one.
  have hsign : ∀ tail, layOut (Nat.toDigits 10 d.coefficient) d.exponent ++ rest ≠ '-' :: tail := by
    intro tail htail
    rw [htail] at hread
    cases hread
  rw [realChars, if_neg (Nat.not_le_of_lt hfinite), List.append_assoc, number?,
    sign_append hsign]
  exact hread

theorem ends_cons {c : Char} (hc : (c.isDigit || (c = '.' || c = 'e')) = false) :
    Ends (c :: rest) :=
  have hparts := Bool.or_eq_false_iff.1 hc
  ⟨hparts.1, hparts.2⟩

end Reader
end Json
end PocketCalc
