import Mathlib
import TermLang.Number.Dyadic

/-!
# Doubles by their bits

A double is determined by its 64 bits: one of sign, eleven of exponent, fifty-two of fraction. The
exact value of `Dyadic.ofFloat?` reads these fields off as natural numbers, whereas the primitive
`Float.ofBits` unpacks and packs bit vectors. Here the two views are joined. A double is finite
exactly when its exponent field is not all ones, exactly then it has an exact value, and putting its
own bits together gives it back.

Patterns that are no number are not covered: `Float.ofBits` replaces them all by one.
-/

namespace TermLang.Number

open Float.Model

/-- The exponent field of a bit pattern. -/
def exponentField (bits : UInt64) : Nat := bits.toNat / Nat.pow 2 52 % Nat.pow 2 11

/-- The bits determine the double, since a double is nothing but its valid bits. -/
theorem double_ext {x y : Float} (same : x.toBits = y.toBits) : x = y := by
  rcases x with ⟨⟨bits, valid⟩⟩
  rcases y with ⟨⟨others, otherValid⟩⟩
  have equal : bits = others := same
  subst equal
  rfl

/-! ## Fields of a bit vector -/

/-- Unpacking finds the exponent field of a pattern by dividing the fraction off and the sign away.
-/
theorem unpacked_exponent (bits : UInt64) :
    (@UnpackedFloat.unpackExponent Format.binary64 bits.toBitVec).toNat =
      exponentField bits := by
  simp [UnpackedFloat.unpackExponent, BitVec.extractLsb_toNat, Nat.shiftRight_eq_div_pow,
    exponentField]

/-- Unpacking finds the fraction in the lowest 52 bits. -/
theorem unpacked_fraction (bits : UInt64) :
    (@UnpackedFloat.unpackMantissa Format.binary64 bits.toBitVec).toNat =
      bits.toNat % 2 ^ 52 := by
  simp [UnpackedFloat.unpackMantissa, BitVec.extractLsb_toNat]

/-- Unpacking finds the sign in the highest bit. -/
theorem unpacked_sign (bits : UInt64) :
    (@UnpackedFloat.unpackSign Format.binary64 bits.toBitVec).toNat =
      bits.toNat / 2 ^ 63 := by
  simp only [UnpackedFloat.unpackSign, BitVec.toNat_cast, BitVec.extractLsb_toNat,
    Nat.shiftRight_eq_div_pow, UInt64.toNat_toBitVec]
  have bound := bits.toNat_lt
  omega

/-- Packing puts the three fields side by side. -/
theorem packed_toNat (sign : BitVec 1) (exponent : BitVec 11) (fraction : BitVec 52) :
    (UnpackedFloat.packComponents Format.binary64 (UnpackedFloat.Sign.ofBitVec sign) exponent
      fraction).toNat = sign.toNat * 2 ^ 63 + exponent.toNat * 2 ^ 52 + fraction.toNat := by
  have signKept : (UnpackedFloat.Sign.ofBitVec sign).toBitVec = sign := by
    revert sign
    decide
  simp only [UnpackedFloat.packComponents, signKept]
  rw [BitVec.toNat_append, BitVec.toNat_append, ← Nat.shiftLeft_add_eq_or_of_lt fraction.isLt,
    ← Nat.shiftLeft_add_eq_or_of_lt exponent.isLt]
  simp only [Nat.shiftLeft_eq]
  ring

/-- The fields of a pattern make up the pattern: sign, exponent and fraction, each at its own power
of two. -/
theorem fields_toNat (bits : UInt64) :
    bits.toNat / 2 ^ 63 * 2 ^ 63 + exponentField bits * 2 ^ 52 + bits.toNat % 2 ^ 52 =
      bits.toNat := by
  have bound := bits.toNat_lt
  simp only [exponentField, Nat.pow_eq]
  omega

/-- Unpacking meets an exponent of all ones exactly if the field has its largest value. -/
theorem exponent_full_iff (bits : UInt64) :
    @UnpackedFloat.unpackExponent Format.binary64 bits.toBitVec = -1#11 ↔
      exponentField bits = 2047 := by
  rw [← unpacked_exponent, ← BitVec.toNat_inj]
  simp

/-- Unpacking meets an exponent of all zeros exactly if the field is zero. -/
theorem exponent_zero_iff (bits : UInt64) :
    @UnpackedFloat.unpackExponent Format.binary64 bits.toBitVec = 0#11 ↔
      exponentField bits = 0 := by
  rw [← unpacked_exponent, ← BitVec.toNat_inj]
  simp

/-! ## Finite doubles -/

/-- A double is finite exactly when its exponent field is not all ones. With all ones it is an
infinity or no number, whatever its fraction is. -/
theorem finite_iff (value : Float) :
    value.isFinite = true ↔ exponentField value.toBits ≠ 2047 := by
  rw [ne_eq, ← exponent_full_iff]
  change (UnpackedFloat.unpack Format.binary64 value.toBits.toBitVec).isFinite = true ↔ _
  simp only [UnpackedFloat.unpack]
  split
  · split <;> simp_all [UnpackedFloat.isFinite]
  · split
    · split <;> simp_all [UnpackedFloat.isFinite]
    · simp_all [UnpackedFloat.isFinite]

/-- A subnormal significand takes fewer than 53 bits, so it is packed without a leading one. -/
theorem subnormal_bits {significand : Nat} (bound : significand < 2 ^ 52) :
    significand.log2 + 1 ≠ Format.binary64.mantissaBits := by
  by_cases zero : significand = 0
  · rw [zero]
    decide
  · have short : significand.log2 < 52 := (Nat.log2_lt zero).mpr bound
    simp only [Format.mantissaBits]
    omega

/-- A significand with its leading one in place takes exactly 53 bits. -/
theorem normal_bits {fraction : Nat} (bound : fraction < 2 ^ 52) :
    (2 ^ 52 + fraction).log2 + 1 = Format.binary64.mantissaBits := by
  have exact : (2 ^ 52 + fraction).log2 = 52 :=
    (Nat.log2_eq_iff (by omega)).mpr ⟨by omega, by omega⟩
  rw [exact]
  rfl

/-- Unpacking and packing give a finite pattern back. The three cases are those of the unpacked
form: a zero, a subnormal number, and a normal number with its leading one restored. -/
theorem pack_unpack (bits : UInt64) (finite : exponentField bits ≠ 2047) :
    (UnpackedFloat.pack Format.binary64
      (UnpackedFloat.unpack Format.binary64 bits.toBitVec)).toNat = bits.toNat := by
  have exponent := unpacked_exponent bits
  have fraction := unpacked_fraction bits
  have fields := fields_toNat bits
  have unbiased (field bias : Int) : field - (bias + (52 : Nat)) + bias + (52 : Nat) = field := by
    ring
  have below : exponentField bits < 2048 := Nat.mod_lt _ (by decide)
  have fractionBound : (@UnpackedFloat.unpackMantissa Format.binary64
      bits.toBitVec).toNat < 2 ^ 52 := BitVec.isLt _
  simp only [UnpackedFloat.unpack]
  rw [if_neg (mt (exponent_full_iff bits).mp finite)]
  split
  · rename_i zeroVector
    have zeroField : exponentField bits = 0 := (exponent_zero_iff bits).mp zeroVector
    split
    · rename_i zeroFraction
      have noFraction : bits.toNat % 2 ^ 52 = 0 := by
        rw [← fraction, zeroFraction]
        rfl
      simp only [UnpackedFloat.pack, UnpackedFloat.packedZero]
      refine (packed_toNat _ _ _).trans ?_
      rw [unpacked_sign, ← fields, zeroField, noFraction]
      simp
    · -- A subnormal number is unpacked with the exponent of the least normal one.
      have least : ((exponentField bits : Int) - (Format.binary64.exponentBias + (52 : Nat)) + 1 +
          Format.binary64.exponentBias + (52 : Nat)).toNat = 1 := by
        rw [zeroField]
        decide
      simp only [UnpackedFloat.pack]
      rw [exponent, least, if_neg (by decide), if_neg (subnormal_bits fractionBound)]
      refine (packed_toNat _ _ _).trans ?_
      rw [unpacked_sign, BitVec.toNat_ofNat, BitVec.toNat_ofNat, fraction, Nat.mod_mod]
      rw [zeroField] at fields
      exact fields
  · have restored : (1#1 ++ @UnpackedFloat.unpackMantissa Format.binary64
        bits.toBitVec).toNat = 2 ^ 52 + bits.toNat % 2 ^ 52 := by
      rw [BitVec.toNat_append, ← Nat.shiftLeft_add_eq_or_of_lt fractionBound, fraction]
      rfl
    have normal := normal_bits (fraction ▸ fractionBound)
    simp only [UnpackedFloat.pack]
    rw [exponent, unbiased, Int.toNat_natCast, restored, if_neg (by simp; omega), if_pos normal]
    refine (packed_toNat _ _ _).trans ?_
    rw [unpacked_sign, BitVec.toNat_ofNat, BitVec.toNat_ofNat, Nat.mod_eq_of_lt below]
    -- Packing drops the leading one again, as the field has no room for it.
    have dropped : (2 ^ 52 + bits.toNat % 2 ^ 52) % 2 ^ 52 = bits.toNat % 2 ^ 52 := by omega
    rw [dropped, fields]

/-- The bits of a finite double, put together, are the double. Only the patterns for no number are
not kept. -/
theorem ofBits_toBits {value : Float} (finite : value.isFinite = true) :
    Float.ofBits value.toBits = value := by
  apply double_ext
  apply UInt64.toNat_inj.mp
  exact pack_unpack value.toBits ((finite_iff value).mp finite)

/-- Bits below those of the infinity make a finite double, whatever its sign: the exponent field is
not full, and such a pattern is kept when it is packed. -/
theorem ofMagnitude_finite (negative : Bool) {bits : Nat} (below : bits < infinityBits) :
    (ofMagnitude negative bits).isFinite = true := by
  obtain ⟨sign, isSign, isTop⟩ :
      ∃ sign, sign < 2 ∧ (if negative then Nat.pow 2 63 else 0) = sign * 2 ^ 63 := by
    cases negative with
    | true => exact ⟨1, by decide, rfl⟩
    | false => exact ⟨0, by decide, rfl⟩
  have bound : bits < 2047 * 2 ^ 52 := below
  have pattern : (sign * 2 ^ 63 + bits).toUInt64.toNat = sign * 2 ^ 63 + bits :=
    UInt64.toNat_ofNat_of_lt (show _ < 2 ^ 64 by omega)
  have finite : exponentField (sign * 2 ^ 63 + bits).toUInt64 ≠ 2047 := by
    simp only [exponentField, pattern, Nat.pow_eq]
    omega
  have kept : (Float.ofBits (sign * 2 ^ 63 + bits).toUInt64).toBits =
      (sign * 2 ^ 63 + bits).toUInt64 := by
    apply UInt64.toNat_inj.mp
    exact pack_unpack _ finite
  rw [finite_iff, ofMagnitude, isTop, kept]
  exact finite

end TermLang.Number
