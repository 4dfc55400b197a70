import Mathlib
import FormulaSheet.Number.Shortest

namespace FormulaSheet.Binary
open Float.Model UnpackedFloat

/-- The fields of a double make it up again. -/
theorem packComponents_unpack (b : BitVec 64) :
    packComponents Format.binary64 (Sign.ofBitVec (@unpackSign Format.binary64 b))
      (@unpackExponent Format.binary64 b) (@unpackMantissa Format.binary64 b) =
    b := by
  have hs : ∀ s : BitVec 1, (Sign.ofBitVec s).toBitVec = s := by decide
  rw [packComponents, hs]
  apply BitVec.eq_of_getLsbD_eq
  intro i hi
  simp only [unpackSign, unpackExponent, unpackMantissa, BitVec.getLsbD_append,
    BitVec.getLsbD_cast, BitVec.getLsbD_extractLsb]
  grind

theorem toNat_unpackExponent (b : BitVec 64) :
    (@unpackExponent Format.binary64 b).toNat = b.toNat / 2 ^ 52 % 2 ^ 11 := by
  simp [unpackExponent, BitVec.extractLsb, Nat.shiftRight_eq_div_pow]

theorem toNat_append_mantissa (m : BitVec 52) : (1#1 ++ m).toNat = 2 ^ 52 + m.toNat := by
  rw [BitVec.toNat_append, ← Nat.shiftLeft_add_eq_or_of_lt m.isLt]
  rfl

section Pack

variable (s : Sign) {e : BitVec 11} {m : BitVec 52}

theorem pack_normal (he : e ≠ -1#11) (hm : 0 < (1#1 ++ m).toNat) :
    UnpackedFloat.pack Format.binary64 (.finite s (1#1 ++ m).toNat
      (e.toNat - (Format.binary64.exponentBias + (52 : Nat))) hm) =
      packComponents Format.binary64 s e m := by
  have hlt : e.toNat + 1 < 2 ^ 11 := by
    have : e.toNat ≠ 2047 := fun h => he (BitVec.eq_of_toNat_eq h)
    omega
  have hlog : (2 ^ 52 + m.toNat).log2 + 1 = Format.binary64.mantissaBits := by
    rw [(Nat.log2_eq_iff (by omega)).2 (by omega : _ ∧ 2 ^ 52 + m.toNat < 2 ^ (52 + 1))]
    rfl
  have hbias : ((e.toNat : Int) - (Format.binary64.exponentBias + (52 : Nat)) +
      Format.binary64.exponentBias + (52 : Nat)).toNat = e.toNat := by omega
  have hmantissa : BitVec.ofNat 52 (2 ^ 52 + m.toNat) = m :=
    BitVec.eq_of_toNat_eq (by rw [BitVec.toNat_ofNat]; omega)
  simp only [UnpackedFloat.pack, toNat_append_mantissa]
  rw [hbias, if_neg (by omega), if_pos hlog, hmantissa, BitVec.ofNat_toNat]
  rfl

theorem pack_subnormal (he : e = 0#11) (hm : 0 < m.toNat) :
    UnpackedFloat.pack Format.binary64 (.finite s m.toNat
      (e.toNat - (Format.binary64.exponentBias + (52 : Nat)) + 1) hm) =
      packComponents Format.binary64 s e m := by
  have hlog : m.toNat.log2 + 1 ≠ Format.binary64.mantissaBits := by
    have : m.toNat.log2 < 52 := (Nat.log2_lt (Nat.ne_of_gt hm)).2 m.isLt
    change m.toNat.log2 + 1 ≠ 53
    omega
  have hbias : (((0#11).toNat : Int) - (Format.binary64.exponentBias + (52 : Nat)) + 1 +
      Format.binary64.exponentBias + (52 : Nat)).toNat = 1 := rfl
  subst he
  simp only [UnpackedFloat.pack]
  rw [hbias, if_neg (by decide), if_neg hlog, BitVec.ofNat_toNat]
  rfl

end Pack

/-- Only the bits of a double that is no number are not kept. -/
theorem pack_unpack {b : BitVec 64} (h : Format.binary64.Valid b) :
    UnpackedFloat.pack Format.binary64 (UnpackedFloat.unpack Format.binary64 b) = b := by
  have hb := packComponents_unpack b
  unfold UnpackedFloat.unpack
  dsimp only
  split
  · next he =>
    split
    · next hm =>
      rw [he, hm] at hb
      exact hb
    · next hm => exact (h.eq_packedNaN he hm).symm
  · next he =>
    split
    · next hz =>
      split
      · next hm =>
        rw [hz, hm] at hb
        exact hb
      · next hm => exact (pack_subnormal _ hz _).trans hb
    · next hz => exact (pack_normal _ he _).trans hb

theorem ofBits_toBits (x : Float) : Float.ofBits x.toBits = x := by
  obtain ⟨bits, hv⟩ := x
  have hm : Float.Model.ofBits bits = ⟨bits, hv⟩ := by
    rw [Float.Model.mk.injEq]
    exact congrArg UInt64.ofBitVec (pack_unpack hv)
  exact congrArg Float.ofModel hm

theorem toBits_ofBits {b : UInt64} (h : Format.binary64.Valid b.toBitVec) :
    (Float.ofBits b).toBits = b :=
  congrArg UInt64.ofBitVec (pack_unpack h)

/-- Up to infinity there are only numbers, so no bits are changed. -/
theorem valid_of_le {b : UInt64} (h : b.toNat % signBit ≤ infinityBits) :
    Format.binary64.Valid b.toBitVec := by
  refine ⟨fun he hm => absurd (BitVec.eq_of_toNat_eq ?_) hm⟩
  have he := congrArg BitVec.toNat he
  rw [toNat_unpackExponent, UInt64.toNat_toBitVec] at he
  change _ = 2047 at he
  simp only [signBit, infinityBits, binade] at h
  simp only [unpackMantissa, BitVec.extractLsb, BitVec.toNat_cast, BitVec.extractLsb'_toNat,
    UInt64.toNat_toBitVec]
  change b.toNat >>> 0 % 2 ^ 52 = 0
  omega

/-- The bits of a finite double are below those of infinity, its sign aside. -/
theorem isFinite_iff {x : Float} : x.isFinite ↔ x.toBits.toNat % signBit < infinityBits := by
  have he : @unpackExponent Format.binary64 x.toBits.toBitVec = -1#11 ↔
      x.toBits.toNat / 2 ^ 52 % 2 ^ 11 = 2047 := by
    rw [← BitVec.toNat_inj, toNat_unpackExponent]
    rfl
  have hf : x.isFinite ↔ x.toBits.toNat / 2 ^ 52 % 2 ^ 11 ≠ 2047 := by
    rw [Ne, ← he]
    change (UnpackedFloat.unpack Format.binary64 x.toBits.toBitVec).isFinite ↔ _
    unfold UnpackedFloat.unpack
    dsimp only
    split
    · next h => exact iff_of_false (by split <;> simp [UnpackedFloat.isFinite]) (not_not.2 h)
    · next h =>
      refine iff_of_true ?_ h
      split
      · split <;> rfl
      · rfl
  simp only [hf, signBit, infinityBits, binade]
  omega

theorem isNaN_of_isFinite {x : Float} (h : x.isFinite) : x.isNaN = false := by
  change x.toModel.unpack.isFinite = true at h
  change x.toModel.unpack.isNaN = false
  cases hx : x.toModel.unpack with
  | notANumber => simp [hx, UnpackedFloat.isFinite] at h
  | _ => rfl

theorem toNat_toBits_signed {bits : Nat} (negative : Bool) (h : bits ≤ infinityBits) :
    (signed negative bits).toBits.toNat = if negative then signBit + bits else bits := by
  have hn : (UInt64.ofNat (if negative then signBit + bits else bits)).toNat =
      if negative then signBit + bits else bits := by
    rw [UInt64.toNat_ofNat']
    simp only [infinityBits, signBit, binade] at *
    split <;> omega
  rw [signed, toBits_ofBits, hn]
  apply valid_of_le
  rw [hn]
  simp only [infinityBits, signBit, binade] at *
  split <;> omega

/-- A double is its magnitude and its sign. -/
theorem signed_toBits (x : Float) :
    signed (!decide (x.toBits.toNat < signBit)) (x.toBits.toNat % signBit) = x := by
  have hb := x.toBits.toNat_lt
  have he : (if (!decide (x.toBits.toNat < signBit)) = true then signBit + x.toBits.toNat % signBit
      else x.toBits.toNat % signBit) = x.toBits.toNat := by
    simp only [signBit, binade]
    by_cases h : x.toBits.toNat < 2048 * 0x10000000000000
    · simp only [h, decide_true, Bool.not_true, Bool.false_eq_true, if_false]
      omega
    · simp only [h, decide_false, Bool.not_false, if_true]
      omega
  rw [signed, he, UInt64.ofNat_toNat, ofBits_toBits]

end FormulaSheet.Binary
