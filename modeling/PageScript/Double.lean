/-!
# Doubles

A double is known by its 64 bits.  So the many bit patterns that stand for no number stay apart,
which matters where doubles are put in order; arithmetic, which is that of `Float`, does not tell
them apart.

Every finite double is a whole number of units of `2 ^ (-1074)`, the least positive double.  The
bits of a double below its sign bit, read as a natural number, are its *magnitude*: magnitudes
count the non-negative doubles upwards from zero, and the magnitude after the largest finite
one is that of infinity.  Seen this way a double is a sign and a natural number, and rounding
a ratio to the nearest double is one division of natural numbers.
-/

namespace PageScript

/-- The quotient rounded to the nearest natural number; a tie goes to the even neighbour. -/
def roundDiv (num den : Nat) : Nat :=
  let q := num / den
  let r := num % den
  if 2 * r < den ∨ (2 * r = den ∧ q % 2 = 0) then q else q + 1

/-- A floating point number of 64 bits. -/
structure Double where
  /-- The sign bit, the exponent and the significand, from the upper end down. -/
  bits : UInt64
deriving DecidableEq, Repr

namespace Double

-- A power means the same here with and without the theory of monoids in scope.
attribute [local instance (high)] instPowNat

/-! ## Sign and magnitude -/

/-- How many binary places, and so how many decimal places, the value of a double has at most.  No
proof computes a power with this number. -/
@[irreducible] def places : Nat := 1074

/-- How many units make one. -/
def scale : Nat := 2 ^ places

/-- The magnitude of infinity. -/
def infinity : Nat := 2047 * 2 ^ (52 : Nat)

/-- The bits below the sign bit, as a number. -/
def magnitude (x : Double) : Nat := x.bits.toNat % 2 ^ (63 : Nat)

/-- Whether the sign bit is set. -/
def isNegative (x : Double) : Bool := 2 ^ (63 : Nat) ≤ x.bits.toNat

/-- The double of a sign and a magnitude. -/
def ofMagnitude (negative : Bool) (g : Nat) : Double :=
  ⟨UInt64.ofNat (if negative then 2 ^ (63 : Nat) + g else g)⟩

theorem toNat_bits_ofMagnitude {negative : Bool} {g : Nat} (h : g < 2 ^ (63 : Nat)) :
    (ofMagnitude negative g).bits.toNat = if negative then 2 ^ (63 : Nat) + g else g := by
  rw [ofMagnitude, UInt64.toNat_ofNat', Nat.mod_eq_of_lt]
  split <;> omega

theorem magnitude_ofMagnitude {negative : Bool} {g : Nat} (h : g < 2 ^ (63 : Nat)) :
    (ofMagnitude negative g).magnitude = g := by
  rw [magnitude, toNat_bits_ofMagnitude h]
  split
  · rw [Nat.add_mod_left, Nat.mod_eq_of_lt h]
  · rw [Nat.mod_eq_of_lt h]

theorem isNegative_ofMagnitude {negative : Bool} {g : Nat} (h : g < 2 ^ (63 : Nat)) :
    (ofMagnitude negative g).isNegative = negative := by
  rw [isNegative, toNat_bits_ofMagnitude h]
  cases negative
  · exact decide_eq_false (Nat.not_le.2 h)
  · exact decide_eq_true (Nat.le_add_right _ _)

/-- A double is its sign and its magnitude. -/
theorem ofMagnitude_magnitude (x : Double) : ofMagnitude x.isNegative x.magnitude = x := by
  obtain ⟨bits⟩ := x
  have hlt := bits.toNat_lt
  rw [ofMagnitude, mk.injEq, ← UInt64.toNat_inj, UInt64.toNat_ofNat']
  by_cases h : 2 ^ (63 : Nat) ≤ bits.toNat
  · simp only [isNegative, magnitude, h, decide_true, if_true]
    omega
  · simp only [isNegative, magnitude, h, decide_false, Bool.false_eq_true, if_false]
    omega

/-- Whether the double is a number, neither infinite nor NaN. -/
def isFinite (x : Double) : Bool := x.magnitude < infinity

/-- Whether the double is one of the two infinities. -/
def isInfinite (x : Double) : Bool := x.magnitude = infinity

/-- Whether the double is not a number at all. -/
def isNaN (x : Double) : Bool := infinity < x.magnitude

/-- The place of a double in the total order: `-0.0` is before `0.0`, and what is not a number is
beyond the infinity of its sign. -/
def position (x : Double) : Int :=
  if x.isNegative then -(x.magnitude : Int) - 1 else x.magnitude

/-! ## Values -/

/-- The value of a finite magnitude, in units.  Below `2 ^ 52` a magnitude is its own value;
above, its upper bits say how often 53 significant bits are doubled. -/
def units (g : Nat) : Nat :=
  if g < 2 ^ (52 : Nat) then g else (2 ^ (52 : Nat) + g % 2 ^ (52 : Nat)) * 2 ^ (g / 2 ^ (52 : Nat) - 1)

/-- The magnitude nearest to `num / den`, a tie going to the even one; infinity where the ratio
is out of range. -/
def nearest (num den : Nat) : Nat :=
  -- From `2 ^ 53` units on, neighbouring doubles are `2 ^ shift` units apart; rounding up to the
  -- next power of two carries into the exponent, as it should.
  let shift := (num * scale / den).log2 - 52
  min (shift * 2 ^ (52 : Nat) + roundDiv (num * scale) (den * 2 ^ shift)) infinity

/-- The double nearest to an integer. -/
def ofInt (z : Int) : Double := ofMagnitude (z < 0) (nearest z.natAbs 1)

/-! ## Arithmetic -/

/-- The double as a float; all that is not a number becomes the same. -/
def toFloat (x : Double) : Float := Float.ofBits x.bits

/-- The double that a float is. -/
def ofFloat (x : Float) : Double := ⟨x.toBits⟩

instance : Add Double := ⟨fun x y => ofFloat (x.toFloat + y.toFloat)⟩
instance : Sub Double := ⟨fun x y => ofFloat (x.toFloat - y.toFloat)⟩
instance : Mul Double := ⟨fun x y => ofFloat (x.toFloat * y.toFloat)⟩
instance : Div Double := ⟨fun x y => ofFloat (x.toFloat / y.toFloat)⟩

/-- The double without its sign. -/
def abs (x : Double) : Double := ofMagnitude false x.magnitude

/-- The sine of an angle in degrees. -/
def sineOfDegrees (x : Double) : Double :=
  ofFloat (x.toFloat * (3.141592653589793 / 180.0)).sin

end Double

end PageScript
