import PageScript.Proofs.Double.Closeness
import Mathlib
/-!
# Products of positive doubles

Without their sign, doubles are scaled by 1, 100 or 1000.  The product is again a number without a
minus sign, or infinity; it is never undefined, for no factor is zero or infinite.

The sign and the kind of a product are read off unpacked floats, as for differences.
-/

namespace PageScript

open Float.Model (Format UnpackedFloat)
open Float.Model.UnpackedFloat (Sign)

/-! ## Unpacked floats -/

/-- Zero, numbers and infinity without a minus sign. -/
inductive Unpacked.IsPositive : UnpackedFloat → Prop
  /-- Zero. -/
  | zero : Unpacked.IsPositive (.zero .positive)
  /-- A number above zero. -/
  | finite (m : Nat) (e : Int) (h : 0 < m) : Unpacked.IsPositive (.finite .positive m e h)
  /-- Infinity. -/
  | infinity : Unpacked.IsPositive (.infinity .positive)

namespace Unpacked

variable {u v : UnpackedFloat} {b : BitVec Format.binary64.numBits}

/-- The sign bit of a float. -/
abbrev sign (b : BitVec Format.binary64.numBits) : BitVec 1 := UnpackedFloat.unpackSign b

/-- The significand bits of a float. -/
abbrev mantissa (b : BitVec Format.binary64.numBits) : BitVec 52 := UnpackedFloat.unpackMantissa b

/-- The bits of a float without a minus sign that is not undefined: the sign bit is clear, and so is
the significand if all exponent bits are set. -/
structure HasPositiveBits (b : BitVec Format.binary64.numBits) : Prop where
  sign_eq : sign b = 0#1
  mantissa_eq : exponent b = -1#11 → mantissa b = 0#52

lemma isPositive_unpack (h : HasPositiveBits b) :
    IsPositive (UnpackedFloat.unpack Format.binary64 b) := by
  have hsign : Sign.ofBitVec (UnpackedFloat.unpackSign b) = .positive := by
    have hzero := h.sign_eq
    rw [sign] at hzero
    rw [hzero]
    rfl
  unfold UnpackedFloat.unpack
  dsimp only
  rw [hsign]
  by_cases hones : exponent b = -1#11
  · rw [if_pos hones, if_pos (h.mantissa_eq hones)]
    exact .infinity
  rw [if_neg hones]
  by_cases hzero : exponent b = 0#11
  · rw [if_pos hzero]
    split
    · exact .zero
    · exact .finite _ _ _
  · rw [if_neg hzero]
    exact .finite _ _ _

lemma sign_packComponents {spec : Format} (s : Sign) (e : BitVec spec.exponentBits)
    (m : BitVec spec.mantissaBitsWithoutImplicit) :
    UnpackedFloat.unpackSign (UnpackedFloat.packComponents spec s e m) = s.toBitVec := by
  ext i hi
  obtain rfl : i = 0 := by omega
  simp [UnpackedFloat.unpackSign, UnpackedFloat.packComponents, BitVec.getLsbD_append,
    BitVec.getElem_append]

/-- Packed components without a minus sign, whose significand is zero if all exponent bits are
set. -/
lemma hasPositiveBits_packComponents {e : BitVec 11} {m : BitVec 52} (h : e = -1#11 → m = 0#52) :
    HasPositiveBits (UnpackedFloat.packComponents Format.binary64 .positive e m) := by
  refine ⟨sign_packComponents _ _ _, ?_⟩
  rw [exponent, mantissa, UnpackedFloat.unpackExponent_packComponents,
    UnpackedFloat.unpackMantissa_packComponents]
  exact h

lemma hasPositiveBits_pack (h : IsPositive u) :
    HasPositiveBits (UnpackedFloat.pack Format.binary64 u) := by
  cases h with
  | zero => exact hasPositiveBits_packComponents fun h => absurd h (by decide)
  | infinity => exact hasPositiveBits_packComponents fun _ => rfl
  | finite m e hm =>
    unfold UnpackedFloat.pack
    dsimp only
    split
    · exact hasPositiveBits_packComponents fun _ => rfl
    · next hexponent =>
      split
      · refine hasPositiveBits_packComponents fun h => ?_
        -- A biased exponent with all bits set has been packed as infinity.
        have hones := congrArg BitVec.toNat h
        have : (-1#11).toNat = 2047 := rfl
        rw [BitVec.toNat_ofNat] at hones
        omega
      · exact hasPositiveBits_packComponents fun h => absurd h (by decide)

lemma isPositive_mul {m : Nat} {e : Int} {hm : 0 < m} (h : IsPositive u) :
    IsPositive (UnpackedFloat.mul Format.binary64 u (.finite .positive m e hm)) := by
  cases h with
  | zero => exact .zero
  | infinity => exact .infinity
  | finite m' e' hm' =>
    unfold UnpackedFloat.mul UnpackedFloat.roundWithAccuracy
    dsimp only
    split
    · exact .zero
    · exact .finite _ _ _

/-- Whether an unpacked float is a number above zero. -/
def isAboveZero : UnpackedFloat → Bool
  | .finite .positive _ _ _ => true
  | _ => false

lemma exists_of_isAboveZero (h : isAboveZero v) : ∃ m e hm, v = .finite .positive m e hm := by
  unfold isAboveZero at h
  split at h
  · exact ⟨_, _, _, rfl⟩
  · simp at h

end Unpacked

/-! ## Doubles -/

namespace Double

variable {x y : Double}

lemma toNat_sign_bits (x : Double) :
    (Unpacked.sign x.bits.toBitVec).toNat = x.bits.toNat / 2 ^ 63 % 2 := by
  rw [Unpacked.sign, UnpackedFloat.unpackSign, BitVec.toNat_cast, BitVec.extractLsb_toNat,
    Nat.shiftRight_eq_div_pow]
  rfl

lemma toNat_mantissa_bits (x : Double) :
    (Unpacked.mantissa x.bits.toBitVec).toNat = x.bits.toNat % 2 ^ 52 := by
  rw [Unpacked.mantissa, UnpackedFloat.unpackMantissa, BitVec.toNat_cast, BitVec.extractLsb_toNat]
  simp

/-- A double without a minus sign that is not undefined is known by its bits. -/
lemma hasPositiveBits_iff :
    Unpacked.HasPositiveBits x.bits.toBitVec ↔ x.isNegative = false ∧ x.isNaN = false := by
  have hlt := x.bits.toNat_lt
  have hsign : Unpacked.sign x.bits.toBitVec = 0#1 ↔ x.bits.toNat / 2 ^ 63 % 2 = 0 := by
    rw [← BitVec.toNat_inj, toNat_sign_bits]
    rfl
  have hmantissa : Unpacked.mantissa x.bits.toBitVec = 0#52 ↔ x.bits.toNat % 2 ^ 52 = 0 := by
    rw [← BitVec.toNat_inj, toNat_mantissa_bits]
    rfl
  have hexponent : Unpacked.exponent x.bits.toBitVec = -1#11 ↔ x.magnitude / 2 ^ 52 = 2047 := by
    rw [← BitVec.toNat_inj, exponent_bits]
    rfl
  rw [isNegative, isNaN, decide_eq_false_iff_not, decide_eq_false_iff_not, infinity]
  constructor
  · rintro ⟨hzero, hones⟩
    rw [hsign] at hzero
    rw [hexponent, hmantissa, magnitude] at hones
    rw [magnitude]
    omega
  · rintro ⟨hneg, hnan⟩
    rw [magnitude] at hnan
    refine ⟨hsign.2 (by omega), fun hones => hmantissa.2 ?_⟩
    rw [hexponent, magnitude] at hones
    omega

/-- A product of a double without a minus sign and a number above zero. -/
lemma mul_of_isAboveZero (hneg : x.isNegative = false) (hnan : x.isNaN = false)
    (hy : Unpacked.isAboveZero y.toFloat.toModel.unpack) :
    (x * y).isNegative = false ∧ (x * y).isNaN = false := by
  obtain ⟨m, e, hm, hfinite⟩ := Unpacked.exists_of_isAboveZero hy
  have hx : Unpacked.IsPositive x.toFloat.toModel.unpack :=
    Unpacked.isPositive_unpack (Unpacked.hasPositiveBits_pack
      (Unpacked.isPositive_unpack (hasPositiveBits_iff.2 ⟨hneg, hnan⟩)))
  have hbits : (x * y).bits.toBitVec = UnpackedFloat.pack Format.binary64
      (UnpackedFloat.mul Format.binary64 x.toFloat.toModel.unpack y.toFloat.toModel.unpack) := rfl
  rw [← hasPositiveBits_iff, hbits, hfinite]
  exact Unpacked.hasPositiveBits_pack (Unpacked.isPositive_mul hx)

lemma isNegative_abs (x : Double) : x.abs.isNegative = false :=
  isNegative_ofMagnitude (Nat.mod_lt _ (by decide))

lemma isNaN_abs (h : x.isNaN = false) : x.abs.isNaN = false := by
  have hlt : x.magnitude < 2 ^ 63 := Nat.mod_lt _ (by decide)
  rwa [isNaN, abs, magnitude_ofMagnitude hlt]

/-- Without its sign, a double times 1, 100 or 1000 is a number or infinity. -/
theorem scaled (hx : x.isNaN = false) {factor : Nat}
    (hfactor : factor = 1 ∨ factor = 100 ∨ factor = 1000) :
    (x.abs * ofInt factor).isNegative = false ∧ (x.abs * ofInt factor).isNaN = false := by
  refine mul_of_isAboveZero (isNegative_abs x) (isNaN_abs hx) ?_
  rcases hfactor with rfl | rfl | rfl <;> decide +kernel

end Double

end PageScript
