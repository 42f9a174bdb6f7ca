import PageScript.Double
import Mathlib.Algebra.Group.Nat.Defs
import Mathlib.Tactic.Lemma
/-!
# Doubles that are close

Two doubles are taken for the same where the float of their difference is below `1e-5`.  A
finite double is close to itself, for the difference is zero.  What is not finite is close to
nothing, itself included: its difference from anything is infinite or undefined.

Floats are known by their unpacked form here: zeros and finite numbers on one side, infinities and
what is no number on the other.  Which side it is, is read off the exponent bits.
-/

namespace PageScript

open Float.Model (Format UnpackedFloat)
open Float.Model.UnpackedFloat (Sign)

/-! ## Unpacked floats -/

/-- Zeros and finite numbers. -/
inductive Unpacked.IsFinite : UnpackedFloat → Prop
  /-- A zero of either sign. -/
  | zero (s : Sign) : Unpacked.IsFinite (.zero s)
  /-- A number that is not zero. -/
  | finite (s : Sign) (m : Nat) (e : Int) (h : 0 < m) : Unpacked.IsFinite (.finite s m e h)

/-- Infinities and what is no number. -/
inductive Unpacked.IsInfinite : UnpackedFloat → Prop
  /-- An infinity of either sign. -/
  | infinity (s : Sign) : Unpacked.IsInfinite (.infinity s)
  /-- What is no number. -/
  | notANumber : Unpacked.IsInfinite .notANumber

namespace Unpacked

variable {u v : UnpackedFloat} {b : BitVec Format.binary64.numBits}

/-- The exponent bits of a float. -/
abbrev exponent (b : BitVec Format.binary64.numBits) : BitVec 11 := UnpackedFloat.unpackExponent b

/-- What holds of both zeros and of every number whose exponent is in range holds of all floats whose
exponent bits are not all set. -/
lemma unpack_cases {P : UnpackedFloat → Prop} (h : exponent b ≠ -1#11) (zero : ∀ s, P (.zero s))
    (finite : ∀ s m e hm, (e + 1075).toNat < 2047 → P (.finite s m e hm)) :
    P (UnpackedFloat.unpack Format.binary64 b) := by
  have hne : (@UnpackedFloat.unpackExponent Format.binary64 b).toNat ≠ 2047 :=
    fun heq => h (BitVec.eq_of_toNat_eq heq)
  have hlt : (@UnpackedFloat.unpackExponent Format.binary64 b).toNat < 2 ^ 11 :=
    (exponent b).isLt
  have hbias : Format.binary64.exponentBias = 1023 := rfl
  unfold UnpackedFloat.unpack
  dsimp only
  rw [if_neg h]
  by_cases hzero : exponent b = 0#11
  · rw [if_pos hzero]
    by_cases hm : (UnpackedFloat.unpackMantissa b : BitVec 52) = 0#52
    · rw [dif_pos hm]
      exact zero _
    · rw [dif_neg hm]
      apply finite
      have : (@UnpackedFloat.unpackExponent Format.binary64 b).toNat = 0 :=
        congrArg BitVec.toNat hzero
      omega
  · rw [if_neg hzero]
    apply finite
    omega

/-- A float is finite unless its exponent bits are all set. -/
lemma isFinite_unpack (h : exponent b ≠ -1#11) :
    Unpacked.IsFinite (UnpackedFloat.unpack Format.binary64 b) :=
  unpack_cases h .zero fun s m e hm _ => .finite s m e hm

lemma isInfinite_unpack (h : exponent b = -1#11) :
    Unpacked.IsInfinite (UnpackedFloat.unpack Format.binary64 b) := by
  unfold UnpackedFloat.unpack
  dsimp only
  rw [if_pos h]
  split
  · exact .infinity _
  · exact .notANumber

/-- Packing what is not finite sets all exponent bits. -/
lemma exponent_pack (h : Unpacked.IsInfinite u) :
    exponent (UnpackedFloat.pack Format.binary64 u) = -1#11 := by
  cases h with
  | infinity s => exact UnpackedFloat.unpackExponent_packComponents
  | notANumber => exact UnpackedFloat.unpackExponent_packComponents

/-- Packing a number whose exponent is in range leaves some exponent bit clear. -/
lemma exponent_pack_finite {s : Sign} {m : Nat} {e : Int} (hm : 0 < m)
    (he : (e + 1075).toNat < 2047) :
    exponent (UnpackedFloat.pack Format.binary64 (.finite s m e hm)) ≠ -1#11 := by
  have hbias : e + (Format.binary64.exponentBias : Int) + (52 : Nat) = e + 1075 := by
    have : Format.binary64.exponentBias = 1023 := rfl
    omega
  have hnot : ¬ 2 ^ 11 ≤ (e + 1075).toNat + 1 := by omega
  unfold UnpackedFloat.pack
  dsimp only
  rw [hbias, if_neg hnot]
  split
  · rw [exponent, UnpackedFloat.unpackExponent_packComponents]
    intro h
    have := congrArg BitVec.toNat h
    rw [BitVec.toNat_ofNat, Nat.mod_eq_of_lt (by omega)] at this
    have : (-1#11).toNat = 2047 := rfl
    omega
  · rw [exponent, UnpackedFloat.unpackExponent_packComponents]
    decide

/-- Packing what was unpacked from a finite number leaves some exponent bit clear. -/
lemma exponent_pack_unpack (h : exponent b ≠ -1#11) :
    exponent (UnpackedFloat.pack Format.binary64 (UnpackedFloat.unpack Format.binary64 b)) ≠
      -1#11 := by
  refine unpack_cases (P := fun u => exponent (UnpackedFloat.pack Format.binary64 u) ≠ -1#11) h
    (fun s => ?_) fun s m e hm he => exponent_pack_finite hm he
  have hpack : UnpackedFloat.pack Format.binary64 (.zero s) =
      UnpackedFloat.packComponents Format.binary64 s 0 0 := rfl
  rw [hpack, exponent, UnpackedFloat.unpackExponent_packComponents]
  decide

/-- The difference of a finite number and itself is zero. -/
lemma sub_self (h : Unpacked.IsFinite u) :
    UnpackedFloat.sub Format.binary64 u u = .zero .positive := by
  cases h with
  | zero s => cases s <;> rfl
  | finite s m e hm =>
    have hsub : UnpackedFloat.sub Format.binary64 (.finite s m e hm) (.finite s m e hm) =
        let k := s.apply (UnpackedFloat.decreaseExponent m e (min e e)).1
        UnpackedFloat.normalize Format.binary64 (k - k) (min e e) .positive := rfl
    rw [hsub]
    dsimp only
    rw [Int.sub_self]
    rfl

/-- From what is not finite there is no finite difference. -/
lemma isInfinite_sub (h : Unpacked.IsInfinite v) :
    Unpacked.IsInfinite (UnpackedFloat.sub Format.binary64 u v) := by
  cases h with
  | infinity s =>
    cases u with
    | infinity s' =>
      have hsub : UnpackedFloat.sub Format.binary64 (.infinity s') (.infinity s) =
          if s' == -s then .infinity s' else .notANumber := rfl
      rw [hsub]
      split
      · exact .infinity s'
      · exact .notANumber
    | notANumber => exact .notANumber
    | zero | finite => exact .infinity _
  | notANumber => cases u <;> exact .notANumber

/-- Without its sign, what is not finite is below nothing. -/
lemma not_abs_lt (h : Unpacked.IsInfinite u) :
    (UnpackedFloat.unpack Format.binary64 (UnpackedFloat.pack Format.binary64 u.abs)).lt v =
      false := by
  cases h with
  | infinity s =>
    have habs : (UnpackedFloat.infinity s).abs = .infinity .positive := rfl
    have hback : UnpackedFloat.unpack Format.binary64
        (UnpackedFloat.pack Format.binary64 (.infinity .positive)) = .infinity .positive := rfl
    rw [habs, hback]
    cases v with
    | infinity s' => cases s' <;> rfl
    | notANumber | zero | finite => rfl
  | notANumber =>
    have hback : UnpackedFloat.unpack Format.binary64
        (UnpackedFloat.pack Format.binary64 UnpackedFloat.notANumber.abs) = .notANumber := rfl
    rw [hback]
    rfl

end Unpacked

/-! ## Doubles as floats -/

namespace Double

variable {x y : Double}

/-- The exponent bits of a double are the upper part of its magnitude. -/
lemma exponent_bits (x : Double) :
    (Unpacked.exponent x.bits.toBitVec).toNat = x.magnitude / 2 ^ 52 := by
  have hlt := x.bits.toNat_lt
  have hextract : (Unpacked.exponent x.bits.toBitVec).toNat = x.bits.toNat / 2 ^ 52 % 2 ^ 11 := by
    rw [Unpacked.exponent, UnpackedFloat.unpackExponent, BitVec.toNat_cast, BitVec.extractLsb_toNat,
      Nat.shiftRight_eq_div_pow]
    rfl
  rw [hextract, magnitude]
  omega

/-- A double is finite unless its exponent bits are all set. -/
lemma exponent_eq_iff : Unpacked.exponent x.bits.toBitVec = -1#11 ↔ x.isFinite = false := by
  have hlt : x.magnitude < 2 ^ 63 := Nat.mod_lt _ (by decide)
  have hones : (-1#11).toNat = 2047 := rfl
  rw [← BitVec.toNat_inj, exponent_bits, hones, isFinite, decide_eq_false_iff_not, infinity]
  omega

/-- The float of a finite double is finite. -/
lemma isFinite_toFloat (h : x.isFinite) : Unpacked.IsFinite x.toFloat.toModel.unpack := by
  have hbits : Unpacked.exponent x.bits.toBitVec ≠ -1#11 := by
    rw [Ne, exponent_eq_iff, h]
    decide
  exact Unpacked.isFinite_unpack (Unpacked.exponent_pack_unpack hbits)

/-- The float of any other double is not. -/
lemma isInfinite_toFloat (h : x.isFinite = false) :
    Unpacked.IsInfinite x.toFloat.toModel.unpack :=
  Unpacked.isInfinite_unpack
    (Unpacked.exponent_pack (Unpacked.isInfinite_unpack (exponent_eq_iff.2 h)))

/-- A finite double is close to itself. -/
theorem close_self (h : x.isFinite) : (x.toFloat - x.toFloat).abs < 1e-5 := by
  have hsub : x.toFloat - x.toFloat = Float.ofModel (Float.Model.pack (.zero .positive)) := by
    change Float.ofModel (Float.Model.pack (UnpackedFloat.sub Format.binary64
      x.toFloat.toModel.unpack x.toFloat.toModel.unpack)) = _
    rw [Unpacked.sub_self (isFinite_toFloat h)]
  rw [hsub]
  decide

/-- Nothing is close to a double that is not finite. -/
theorem isFinite_of_close (h : (x.toFloat - y.toFloat).abs < 1e-5) : y.isFinite := by
  cases hy : y.isFinite with
  | true => rfl
  | false =>
    have hsub : Unpacked.IsInfinite (x.toFloat - y.toFloat).toModel.unpack :=
      Unpacked.isInfinite_unpack
        (Unpacked.exponent_pack (Unpacked.isInfinite_sub (isInfinite_toFloat hy)))
    have hlt := @Unpacked.not_abs_lt _ (1e-5 : Float).toModel.unpack hsub
    have habs : (UnpackedFloat.unpack Format.binary64 (UnpackedFloat.pack Format.binary64
        (x.toFloat - y.toFloat).toModel.unpack.abs)).lt (1e-5 : Float).toModel.unpack = true :=
      of_decide_eq_true h
    rw [hlt] at habs
    exact habs

end Double

end PageScript
