import AmountPad.Binary64
import Mathlib

/-!
# Doubles and their bits

A double is a sign, an exponent and a mantissa.  Unless all bits of the exponent
are set the double is finite, and then its parts are kept when it is taken apart
and put together again.  So the bits of a finite double below the sign count it
among the finite ones, and negation changes the sign and nothing else.
-/

namespace AmountPad.Binary64

open Float.Model Float.Model.UnpackedFloat

/-! ## Parts -/

section Parts

variable {exponent : BitVec 11} {mantissa : BitVec 52}

@[simp]
theorem ofBitVec_toBitVec (sign : Sign) : Sign.ofBitVec sign.toBitVec = sign := by
  cases sign <;> rfl

@[simp]
theorem unpackSign_packComponents (sign : Sign) :
    unpackSign (packComponents .binary64 sign exponent mantissa) = sign.toBitVec := by
  ext i isBit
  have isFirst : i = 0 := by omega
  subst isFirst
  simp only [unpackSign, packComponents, BitVec.getElem_cast, BitVec.extractLsb,
    BitVec.getElem_extractLsb']
  rw [BitVec.getLsbD_append, BitVec.getLsbD_append]
  simp

/-- The parts stand in their places. -/
theorem toNat_packComponents (sign : Sign) (exponent : BitVec 11) (mantissa : BitVec 52) :
    (packComponents .binary64 sign exponent mantissa).toNat =
      sign.toBitVec.toNat * signBit + (exponent.toNat * perBinade + mantissa.toNat) := by
  have signEq : signBit = 2 ^ 11 * 2 ^ 52 := by decide
  have binadeEq : perBinade = 2 ^ 52 := by decide
  rw [packComponents, BitVec.toNat_append, BitVec.toNat_append,
    ← Nat.shiftLeft_add_eq_or_of_lt exponent.isLt,
    ← Nat.shiftLeft_add_eq_or_of_lt mantissa.isLt, Nat.shiftLeft_eq, Nat.shiftLeft_eq,
    Nat.add_mul, Nat.mul_assoc, Nat.add_assoc, signEq, binadeEq]

/-- The sign is what is missing when its bit is taken away. -/
theorem exists_sign {bits : Nat} (small : bits < 2 * signBit) :
    ∃ sign : Sign, sign.toBitVec.toNat * signBit + bits % signBit = bits := by
  rcases Nat.lt_or_ge bits signBit with positive | negative
  · rw [Nat.mod_eq_of_lt positive]
    exact ⟨.positive, by simp [Sign.toBitVec]⟩
  · have below : bits - signBit < signBit := by omega
    have rest : bits % signBit = bits - signBit := by
      rw [Nat.mod_eq_sub_mod negative, Nat.mod_eq_of_lt below]
    have added : 1 * signBit + (bits - signBit) = bits := by omega
    rw [rest]
    exact ⟨.negative, added⟩

/-- All bits are parts. -/
theorem exists_packComponents (bits : BitVec 64) :
    ∃ sign exponent mantissa,
      bits = packComponents .binary64 sign exponent mantissa := by
  obtain ⟨sign, signEq⟩ := exists_sign (bits.isLt : bits.toNat < 2 * signBit)
  have exponentSmall : bits.toNat % signBit / perBinade < 2 ^ 11 :=
    Nat.div_lt_of_lt_mul (Nat.mod_lt bits.toNat (by decide : 0 < signBit))
  have mantissaSmall : bits.toNat % signBit % perBinade < 2 ^ 52 :=
    Nat.mod_lt _ (by decide)
  refine ⟨sign, .ofNat 11 (bits.toNat % signBit / perBinade),
    .ofNat 52 (bits.toNat % signBit % perBinade), ?_⟩
  apply BitVec.eq_of_toNat_eq
  rw [toNat_packComponents, BitVec.toNat_ofNat, BitVec.toNat_ofNat,
    Nat.mod_eq_of_lt exponentSmall, Nat.mod_eq_of_lt mantissaSmall,
    Nat.div_add_mod', signEq]

/-- Negation changes the sign. -/
theorem neg_unpack_packComponents (sign : Sign) (exponent : BitVec 11)
    (mantissa : BitVec 52) :
    (UnpackedFloat.unpack .binary64 (packComponents .binary64 sign exponent mantissa)).neg =
      UnpackedFloat.unpack .binary64 (packComponents .binary64 (-sign) exponent mantissa) := by
  simp only [UnpackedFloat.unpack, unpackMantissa_packComponents, unpackExponent_packComponents,
    unpackSign_packComponents, ofBitVec_toBitVec]
  split
  · split <;> rfl
  · split
    · split <;> rfl
    · rfl

/-- A double is finite unless all bits of its exponent are set. -/
theorem isFinite_unpack_packComponents (sign : Sign) (exponent : BitVec 11)
    (mantissa : BitVec 52) :
    (UnpackedFloat.unpack .binary64
        (packComponents .binary64 sign exponent mantissa)).isFinite = true ↔
      exponent ≠ -1#_ := by
  simp only [UnpackedFloat.unpack, unpackMantissa_packComponents,
    unpackExponent_packComponents]
  split
  · rename_i allSet
    refine iff_of_false ?_ fun finite => finite allSet
    split <;> exact Bool.false_ne_true
  · rename_i finite
    refine iff_of_true ?_ finite
    split
    · split <;> rfl
    · rfl

/-- A number with an exponent in the range is put together from its exponent,
or from the lowest one if its mantissa is too short. -/
theorem pack_finite (sign : Sign) {significand exponent : Nat} {power : Int}
    (positive : 0 < significand)
    (powerEq : power + Format.binary64.exponentBias + (52 : Nat) = exponent)
    (inRange : exponent + 1 < 2 ^ 11) :
    UnpackedFloat.pack .binary64 (.finite sign significand power positive) =
      packComponents .binary64 sign
        (if significand.log2 = 52 then .ofNat 11 exponent else 0#11)
        (.ofNat 52 significand) := by
  have mantissaBits : Format.binary64.mantissaBits = 53 := by decide
  simp only [UnpackedFloat.pack, powerEq, Int.toNat_natCast, mantissaBits,
    Nat.reduceEqDiff]
  rw [if_neg (by omega)]
  split <;> rfl

/-- The leading bit stands above the mantissa. -/
theorem toNat_leading_append (mantissa : BitVec 52) :
    (1#1 ++ mantissa).toNat = 2 ^ 52 + mantissa.toNat := by
  rw [BitVec.toNat_append, ← Nat.shiftLeft_add_eq_or_of_lt mantissa.isLt,
    Nat.shiftLeft_eq]
  rfl

theorem log2_leading_append (mantissa : BitVec 52) :
    (1#1 ++ mantissa).toNat.log2 = 52 := by
  have small := mantissa.isLt
  rw [toNat_leading_append, Nat.log2_eq_iff (by omega)]
  omega

theorem log2_toNat_ne (mantissa : BitVec 52) : mantissa.toNat.log2 ≠ 52 := by
  rcases Nat.eq_zero_or_pos mantissa.toNat with isZero | positive
  · rw [isZero]
    decide
  · exact Nat.ne_of_lt ((Nat.log2_lt (Nat.ne_of_gt positive)).mpr mantissa.isLt)

/-- An exponent with a bit that is not set is in the range. -/
theorem toNat_add_one_lt (finite : exponent ≠ -1#_) : exponent.toNat + 1 < 2 ^ 11 := by
  have small := exponent.isLt
  have notLast : exponent.toNat ≠ 2 ^ 11 - 1 := fun last =>
    finite (BitVec.eq_of_toNat_eq last)
  omega

/-- The parts of a finite double are kept. -/
theorem pack_unpack_packComponents (sign : Sign) (finite : exponent ≠ -1#_)
    (mantissa : BitVec 52) :
    UnpackedFloat.pack .binary64
        (UnpackedFloat.unpack .binary64
          (packComponents .binary64 sign exponent mantissa)) =
      packComponents .binary64 sign exponent mantissa := by
  simp only [UnpackedFloat.unpack, unpackMantissa_packComponents,
    unpackExponent_packComponents, unpackSign_packComponents, ofBitVec_toBitVec,
    if_neg finite]
  split
  · rename_i lowest
    split
    · rename_i isZero
      rw [UnpackedFloat.pack, packedZero, lowest, isZero]
      rfl
    · -- a subnormal number has the power of the first binade above it
      have exponentEq : exponent.toNat = 0 := congrArg BitVec.toNat lowest
      have inRange : 1 + 1 < 2 ^ 11 := by decide
      rw [pack_finite sign _ (by omega) inRange, if_neg (log2_toNat_ne mantissa),
        BitVec.ofNat_toNat, BitVec.setWidth_eq, lowest]
  · rw [pack_finite sign _ (by omega) (toNat_add_one_lt finite),
      if_pos (log2_leading_append mantissa), BitVec.ofNat_toNat, BitVec.setWidth_eq]
    congr 1
    apply BitVec.eq_of_toNat_eq
    rw [BitVec.toNat_ofNat, toNat_leading_append, Nat.add_mod_left,
      Nat.mod_eq_of_lt mantissa.isLt]

/-- The exponent and the mantissa are below the sign. -/
theorem rest_lt_signBit (exponent : BitVec 11) (mantissa : BitVec 52) :
    exponent.toNat * perBinade + mantissa.toNat < signBit := by
  have exponentSmall := exponent.isLt
  have mantissaSmall := mantissa.isLt
  simp only [perBinade, signBit]
  omega

/-- What is below the sign tells whether all bits of the exponent are set. -/
theorem rest_lt_infinityBits_iff :
    exponent.toNat * perBinade + mantissa.toNat < infinityBits ↔ exponent ≠ -1#_ := by
  have exponentSmall := exponent.isLt
  have mantissaSmall := mantissa.isLt
  have allSet : exponent = -1#_ ↔ exponent.toNat = 2047 := BitVec.toNat_inj.symm
  rw [ne_eq, allSet]
  simp only [infinityBits, perBinade]
  omega

/-- The sign is taken away with its bit. -/
theorem toNat_packComponents_mod (sign : Sign) :
    (packComponents .binary64 sign exponent mantissa).toNat % signBit =
      exponent.toNat * perBinade + mantissa.toNat := by
  rw [toNat_packComponents, Nat.mul_add_mod_self_right,
    Nat.mod_eq_of_lt (rest_lt_signBit exponent mantissa)]

theorem signBit_le_toNat_packComponents_iff (sign : Sign) :
    signBit ≤ (packComponents .binary64 sign exponent mantissa).toNat ↔
      sign = .negative := by
  have small := rest_lt_signBit exponent mantissa
  rw [toNat_packComponents]
  cases sign with
  | negative => simp [Sign.toBitVec]
  | positive => simpa [Sign.toBitVec] using small

end Parts

/-! ## The bits of a double -/

section Bits

variable {x : Float}

/-- The bits of a double below the sign tell whether it is finite. -/
theorem isFinite_iff : x.isFinite = true ↔ x.toBits.toNat % signBit < infinityBits := by
  obtain ⟨sign, exponent, mantissa, parts⟩ := exists_packComponents x.toBits.toBitVec
  have finiteIff := isFinite_unpack_packComponents sign exponent mantissa
  rw [← parts] at finiteIff
  rw [← UInt64.toNat_toBitVec, parts, toNat_packComponents_mod,
    rest_lt_infinityBits_iff]
  exact finiteIff

/-- The bits of a finite double that is not negative are kept. -/
theorem toNat_toBits_ofBits {bits : Nat} (finite : bits < infinityBits) :
    (Float.ofBits (UInt64.ofNat bits)).toBits.toNat = bits := by
  have small : bits < 2 ^ 64 := Nat.lt_trans finite (by decide)
  have below : bits < signBit := Nat.lt_trans finite (by decide)
  obtain ⟨sign, exponent, mantissa, parts⟩ := exists_packComponents (.ofNat 64 bits)
  have ofNatEq : (BitVec.ofNat 64 bits).toNat = bits := by
    rw [BitVec.toNat_ofNat, Nat.mod_eq_of_lt small]
  have bitsEq : bits = (packComponents .binary64 sign exponent mantissa).toNat :=
    ofNatEq.symm.trans (congrArg BitVec.toNat parts)
  have notAllSet : exponent ≠ -1#_ := by
    rw [← rest_lt_infinityBits_iff, ← toNat_packComponents_mod sign, ← bitsEq,
      Nat.mod_eq_of_lt below]
    exact finite
  have kept := pack_unpack_packComponents sign notAllSet mantissa
  rw [← parts] at kept
  calc
    (Float.ofBits (UInt64.ofNat bits)).toBits.toNat =
        (UnpackedFloat.pack .binary64
          (UnpackedFloat.unpack .binary64 (.ofNat 64 bits))).toNat := rfl
    _ = bits := (congrArg BitVec.toNat kept).trans ofNatEq

/-- The sign bit is the sign. -/
theorem isNegative_iff_of_parts {sign : Sign} {exponent : BitVec 11}
    {mantissa : BitVec 52}
    (parts : x.toBits.toBitVec = packComponents .binary64 sign exponent mantissa) :
    isNegative x = true ↔ sign = .negative := by
  rw [isNegative, decide_eq_true_iff, ← UInt64.toNat_toBitVec, parts,
    signBit_le_toNat_packComponents_iff]

/-- Negation changes the sign of a finite double and nothing else. -/
theorem toBits_neg (finite : x.isFinite = true) :
    (-x).toBits.toNat % signBit = x.toBits.toNat % signBit ∧
      isNegative (-x) = !isNegative x := by
  obtain ⟨sign, exponent, mantissa, parts⟩ := exists_packComponents x.toBits.toBitVec
  have notAllSet : exponent ≠ -1#_ := by
    rw [← isFinite_unpack_packComponents sign exponent mantissa, ← parts]
    exact finite
  have negParts : (-x).toBits.toBitVec =
      packComponents .binary64 (-sign) exponent mantissa := by
    rw [← pack_unpack_packComponents (-sign) notAllSet, ← neg_unpack_packComponents,
      ← parts]
    rfl
  constructor
  · rw [← UInt64.toNat_toBitVec, ← UInt64.toNat_toBitVec, parts, negParts,
      toNat_packComponents_mod, toNat_packComponents_mod]
  · rw [Bool.eq_iff_iff, Bool.not_eq_true', ← Bool.not_eq_true,
      isNegative_iff_of_parts parts, isNegative_iff_of_parts negParts]
    cases sign with
    | negative =>
        exact iff_of_false (fun equal : Sign.positive = .negative => nomatch equal)
          (by simp)
    | positive => exact iff_of_true rfl (by simp)

theorem isFinite_neg (finite : x.isFinite = true) : (-x).isFinite = true := by
  rw [isFinite_iff, (toBits_neg finite).1, ← isFinite_iff]
  exact finite

theorem magnitude_neg (finite : x.isFinite = true) : magnitude (-x) = magnitude x := by
  rw [magnitude, (toBits_neg finite).1, magnitude]

/-- The nearest finite double has the nearest bits. -/
theorem nearest?_eq_some_iff {numerator denominator : Nat} :
    nearest? numerator denominator = some x ↔
      nearestBits numerator denominator < infinityBits ∧
        x = Float.ofBits (UInt64.ofNat (nearestBits numerator denominator)) := by
  simp only [nearest?]
  split
  · rename_i finite
    simp [finite, eq_comm]
  · rename_i tooLarge
    simp [tooLarge]

/-- A double read from bits has them. -/
theorem nearest?_spec {numerator denominator : Nat}
    (nearest : nearest? numerator denominator = some x) :
    x.isFinite = true ∧ isNegative x = false ∧
      magnitude x = units (nearestBits numerator denominator) := by
  obtain ⟨finite, rfl⟩ := nearest?_eq_some_iff.mp nearest
  have below : nearestBits numerator denominator < signBit :=
    Nat.lt_trans finite (by decide)
  have bitsEq := toNat_toBits_ofBits finite
  constructor
  · rw [isFinite_iff, bitsEq, Nat.mod_eq_of_lt below]
    exact finite
  constructor
  · rw [isNegative, bitsEq]
    simpa using below
  · rw [magnitude, bitsEq, Nat.mod_eq_of_lt below]

end Bits

end AmountPad.Binary64
