import PocketCalc.Number.Double

/-!
# The bits of a double

A double is defined by the sign, the exponent and the significand that its bits are
unpacked into, and is packed again after every operation.  A finite double comes out of
both as it went in (`pack_unpack`), so it is given by its sign and its pattern alone
(`ofPattern_pattern`), and it is finite if its pattern is below `infinity`.
-/

namespace PocketCalc
namespace Double

open Float.Model Float.Model.UnpackedFloat

/-! ## The three fields of a word -/

theorem toNat_unpackMantissa (b : BitVec 64) :
    (@unpackMantissa .binary64 b).toNat = b.toNat % hiddenBit := by
  simp only [unpackMantissa, BitVec.toNat_cast, BitVec.extractLsb_toNat, Nat.shiftRight_zero]
  rfl

theorem toNat_unpackExponent (b : BitVec 64) :
    (@unpackExponent .binary64 b).toNat = b.toNat % signBit / hiddenBit := by
  simp only [unpackExponent, BitVec.toNat_cast, BitVec.extractLsb_toNat, Nat.shiftRight_eq_div_pow]
  unfold signBit hiddenBit
  omega

theorem toNat_unpackSign (b : BitVec 64) :
    (@unpackSign .binary64 b).toNat = b.toNat / signBit := by
  have hfield : (@unpackSign .binary64 b).toNat = (b.extractLsb 63 63).toNat := rfl
  have hlt := b.isLt
  rw [hfield, BitVec.extractLsb_toNat, Nat.shiftRight_eq_div_pow]
  unfold signBit
  omega

theorem toNat_packComponents (s : Sign) (e : BitVec 11) (m : BitVec 52) :
    (packComponents .binary64 s e m).toNat =
      s.toBitVec.toNat * signBit + e.toNat * hiddenBit + m.toNat := by
  unfold packComponents
  rw [BitVec.toNat_append, ← Nat.shiftLeft_add_eq_or_of_lt m.isLt, BitVec.toNat_append,
    ← Nat.shiftLeft_add_eq_or_of_lt e.isLt, Nat.shiftLeft_eq, Nat.shiftLeft_eq]
  unfold signBit hiddenBit
  omega

theorem toBitVec_ofBitVec (s : BitVec 1) : (Sign.ofBitVec s).toBitVec = s := by
  revert s
  decide

/-- The fields of a word make up the word. -/
theorem packComponents_unpack (b : BitVec 64) :
    packComponents .binary64 (Sign.ofBitVec (@unpackSign .binary64 b))
      (unpackExponent b) (unpackMantissa b) = b := by
  apply BitVec.eq_of_toNat_eq
  rw [toNat_packComponents, toBitVec_ofBitVec, toNat_unpackMantissa, toNat_unpackExponent,
    toNat_unpackSign]
  unfold signBit hiddenBit
  omega

/-- The exponent with all bits set belongs to what is not finite. -/
theorem unpackExponent_eq_iff (b : BitVec 64) :
    @unpackExponent .binary64 b = -1#_ ↔ infinity ≤ b.toNat % signBit := by
  have hall : (-1#(Format.exponentBits .binary64)).toNat = 2047 := by decide
  rw [← BitVec.toNat_inj, toNat_unpackExponent, hall]
  unfold infinity signBit hiddenBit
  omega

/-! ## Packing what was unpacked -/

theorem toNat_one_append (m : BitVec 52) : (1#1 ++ m).toNat = hiddenBit + m.toNat := by
  rw [BitVec.toNat_append, ← Nat.shiftLeft_add_eq_or_of_lt m.isLt, Nat.shiftLeft_eq]
  rfl

theorem pack_finite (s : Sign) {m : Nat} (e : Int) (hm : 0 < m) :
    UnpackedFloat.pack .binary64 (.finite s m e hm) =
      if 2048 ≤ (e + 1023 + 52).toNat + 1 then packedInfinity .binary64 s
      else if m.log2 + 1 = 53 then
        packComponents .binary64 s (BitVec.ofNat 11 (e + 1023 + 52).toNat) (BitVec.ofNat 52 m)
      else packComponents .binary64 s 0#11 (BitVec.ofNat 52 m) := rfl

/-- A significand without the hidden bit is packed under the exponent zero. -/
theorem pack_subnormal (s : Sign) (m : BitVec 52) {e : Int} (he : e = -1074) (hm : 0 < m.toNat) :
    UnpackedFloat.pack .binary64 (.finite s m.toNat e hm) = packComponents .binary64 s 0#11 m := by
  have hlog : m.toNat.log2 < 52 := (Nat.log2_lt (Nat.ne_of_gt hm)).2 m.isLt
  rw [pack_finite, if_neg (by omega), if_neg (by omega), BitVec.ofNat_toNat, BitVec.setWidth_eq]

/-- A significand with the hidden bit is packed without it. -/
theorem pack_normal (s : Sign) (m : BitVec 52) {e : BitVec 11} (he : e.toNat < 2047) {x : Int}
    (hx : x = e.toNat - 1075) (hm : 0 < (1#1 ++ m).toNat) :
    UnpackedFloat.pack .binary64 (.finite s (1#1 ++ m).toNat x hm) =
      packComponents .binary64 s e m := by
  have hlt := m.isLt
  have hlog : (1#1 ++ m).toNat.log2 = 52 := by
    rw [Nat.log2_eq_iff (Nat.ne_of_gt hm), toNat_one_append]
    unfold hiddenBit
    omega
  have hbiased : (x + 1023 + 52).toNat = e.toNat := by omega
  have hfraction : BitVec.ofNat 52 (1#1 ++ m).toNat = m := by
    apply BitVec.eq_of_toNat_eq
    rw [toNat_one_append, BitVec.toNat_ofNat]
    unfold hiddenBit
    omega
  rw [pack_finite, hbiased, if_neg (by omega), if_pos (by omega), BitVec.ofNat_toNat,
    BitVec.setWidth_eq, hfraction]

theorem pack_unpack {b : BitVec 64} (h : b.toNat % signBit < infinity) :
    UnpackedFloat.pack .binary64 (UnpackedFloat.unpack .binary64 b) = b := by
  have hfields := packComponents_unpack b
  unfold UnpackedFloat.unpack
  dsimp only
  rw [if_neg (mt (unpackExponent_eq_iff b).1 (Nat.not_le_of_lt h))]
  by_cases hexponent : @unpackExponent .binary64 b = 0#_
  · rw [if_pos hexponent]
    rw [hexponent] at hfields
    by_cases hm : @unpackMantissa .binary64 b = 0#_
    · rw [dif_pos hm]
      rw [hm] at hfields
      exact hfields
    · rw [dif_neg hm]
      refine (pack_subnormal _ _ ?_ _).trans hfields
      rw [hexponent]
      rfl
  · rw [if_neg hexponent]
    refine (pack_normal _ _ ?_ rfl _).trans hfields
    rw [toNat_unpackExponent]
    unfold infinity hiddenBit at h
    unfold hiddenBit
    omega

/-! ## Bits, signs and patterns -/

theorem isFinite_iff (x : Float) : x.isFinite ↔ pattern x < infinity := by
  rw [← Nat.not_le]
  show (UnpackedFloat.unpack .binary64 x.toBits.toBitVec).isFinite ↔ ¬ infinity ≤ pattern x
  have hexponent := unpackExponent_eq_iff x.toBits.toBitVec
  unfold UnpackedFloat.unpack
  dsimp only
  by_cases he : @unpackExponent .binary64 x.toBits.toBitVec = -1#_
  · rw [if_pos he]
    refine ⟨fun h => ?_, fun h => absurd (hexponent.1 he) h⟩
    by_cases hm : @unpackMantissa .binary64 x.toBits.toBitVec = 0#_
    · rw [if_pos hm] at h
      cases h
    · rw [if_neg hm] at h
      cases h
  · rw [if_neg he]
    refine ⟨fun _ h => he (hexponent.2 h), fun _ => ?_⟩
    by_cases hzero : @unpackExponent .binary64 x.toBits.toBitVec = 0#_
    · rw [if_pos hzero]
      by_cases hm : @unpackMantissa .binary64 x.toBits.toBitVec = 0#_
      · rw [dif_pos hm]
        rfl
      · rw [dif_neg hm]
        rfl
    · rw [if_neg hzero]
      rfl

theorem toBits_ofBits {u : UInt64} (h : u.toNat % signBit < infinity) :
    (Float.ofBits u).toBits = u := by
  have hpack := pack_unpack (b := u.toBitVec) h
  exact UInt64.toBitVec_inj.1 hpack

theorem ofBits_toBits {x : Float} (h : pattern x < infinity) : Float.ofBits x.toBits = x := by
  have hbits := toBits_ofBits h
  obtain ⟨⟨u, hu⟩⟩ := x
  exact congrArg Float.ofModel ((Float.Model.mk.injEq ..).mpr hbits)

/-- A finite double is given by its sign and its pattern. -/
theorem ofPattern_pattern {x : Float} (h : pattern x < infinity) :
    ofPattern (isNegative x) (pattern x) = x := by
  have hword : UInt64.ofNat ((if isNegative x then signBit else 0) + pattern x) = x.toBits := by
    apply UInt64.toNat_inj.1
    have := x.toBits.toNat_lt
    rw [UInt64.toNat_ofNat']
    unfold isNegative pattern signBit
    simp only [decide_eq_true_eq]
    split <;> omega
  unfold ofPattern
  rw [hword]
  exact ofBits_toBits h

theorem toNat_toBits_ofPattern (negative : Bool) {p : Nat} (h : p < infinity) :
    (ofPattern negative p).toBits.toNat = (if negative then signBit else 0) + p := by
  have hword : (UInt64.ofNat ((if negative then signBit else 0) + p)).toNat =
      (if negative then signBit else 0) + p := by
    rw [UInt64.toNat_ofNat']
    unfold infinity hiddenBit at h
    unfold signBit
    split <;> omega
  unfold ofPattern
  rw [toBits_ofBits, hword]
  rw [hword]
  unfold infinity hiddenBit at h ⊢
  unfold signBit
  split <;> omega

theorem pattern_ofPattern (negative : Bool) {p : Nat} (h : p < infinity) :
    pattern (ofPattern negative p) = p := by
  unfold pattern
  rw [toNat_toBits_ofPattern negative h]
  unfold infinity hiddenBit at h
  unfold signBit
  split <;> omega

end Double
end PocketCalc
