import PageScript.Proofs.Document.Levels
import PageScript.Proofs.Double.Nearest
import PageScript.Proofs.Value.Arithmetic
/-!
# The order of values

Two values are put in the order of the numbers that they stand for.  Two integers are compared
exactly, and other numbers as doubles.  Whatever the numbers are, the order is reversed if they are
exchanged, and it is that of their numeric values with one exception: the negative zero comes before
the other zero, and so before the integer zero.
-/

namespace PageScript

namespace Double

/-- No integer but zero is rounded to zero: the least double is nearer. -/
lemma magnitude_ofInt_eq_zero_iff {z : ℤ} : (ofInt z).magnitude = 0 ↔ z = 0 := by
  have hnearest := isNearest_nearest z.natAbs one_pos
  rw [ofInt, magnitude_ofMagnitude hnearest.lt_two_pow]
  constructor
  · intro h
    by_contra hz
    have hscale : (1 : ℚ) ≤ scale := by exact_mod_cast scale_pos
    have hpos : (0 : ℚ) < 1 / scale := by positivity
    have hone : (1 : ℚ) / scale ≤ 1 := by rwa [div_le_one (by linarith)]
    have habs : (1 : ℚ) ≤ z.natAbs := by exact_mod_cast Int.natAbs_pos.2 hz
    have hleast : valueOf 1 = 1 / scale := rfl
    have hle := hnearest.abs_sub_le 1 (by decide)
    rw [h, hleast, valueOf, units_zero, Nat.cast_zero, zero_div, sub_zero, Nat.cast_one, div_one,
      abs_of_nonneg (by linarith), abs_of_nonneg (by linarith)] at hle
    linarith
  · rintro rfl
    simp [nearest, roundDiv]

lemma not_areOppositeZeros_ofInt (y z : ℤ) : ¬ AreOppositeZeros (ofInt y) (ofInt z) := by
  rintro ⟨hy, hz, hsigns⟩
  obtain rfl := magnitude_ofInt_eq_zero_iff.1 hy
  obtain rfl := magnitude_ofInt_eq_zero_iff.1 hz
  exact hsigns rfl

end Double

namespace Number

variable {a b : Number}

/-- The order of two numbers by value.  An integer that is compared with a double counts as the
double nearest to it. -/
def compareValues : Number → Number → Ordering
  | int a, int b => compare a.toInt b.toInt
  | a, b => compare a.toDouble.extended b.toDouble.extended

lemma isNaN_toDouble (a : Number) : a.toDouble.isNaN = a.isNaN := by
  cases a with
  | int n => exact Double.isNaN_ofMagnitude _ (Double.nearest_le _ _)
  | double x => rfl

/-- Two numbers that are not both integers are compared as doubles. -/
lemma compared_cases (a b : Number) :
    (∃ m n, a = int m ∧ b = int n) ∨
      (a.order b = compare a.toDouble.position b.toDouble.position ∧
        a.compareValues b = compare a.toDouble.extended b.toDouble.extended) := by
  cases a with
  | double x => exact .inr ⟨rfl, rfl⟩
  | int m =>
    cases b with
    | double y => exact .inr ⟨rfl, rfl⟩
    | int n => exact .inl ⟨m, n, rfl, rfl⟩

lemma order_swap (a b : Number) : b.order a = (a.order b).swap := by
  cases a <;> cases b <;> exact Std.OrientedOrd.eq_swap

lemma order_eq_compareValues (ha : a.isNaN = false) (hb : b.isNaN = false)
    (hzeros : ¬ a.toDouble.AreOppositeZeros b.toDouble) : a.order b = a.compareValues b := by
  rw [← isNaN_toDouble] at ha hb
  rcases compared_cases a b with ⟨m, n, rfl, rfl⟩ | ⟨horder, hvalues⟩
  · rfl
  · rw [horder, hvalues, Double.compare_position ha hb hzeros]

lemma order_of_areOppositeZeros (h : a.toDouble.AreOppositeZeros b.toDouble) :
    a.compareValues b = .eq ∧ a.order b = if a.toDouble.isNegative then .lt else .gt := by
  rcases compared_cases a b with ⟨m, n, rfl, rfl⟩ | ⟨horder, hvalues⟩
  · exact absurd h (Double.not_areOppositeZeros_ofInt _ _)
  · obtain ⟨hextended, hposition⟩ := h.compare_position
    exact ⟨hvalues.trans (compare_eq_iff_eq.2 hextended), horder.trans hposition⟩

end Number

namespace Value

variable {left right : Option Value} {a b : Number}

/-- Values that stand for numbers are put in the order of the values of these numbers, unless these
are the two zeros.  Then the negative zero comes first, although neither is less than the other. -/
theorem order_by_value (hleft : StandsFor left a) (hright : StandsFor right b)
    (ha : a.isNaN = false) (hb : b.isNaN = false) :
    ∃ o, order left right = .ok o ∧ order right left = .ok o.swap ∧
      (o = a.compareValues b ↔ ¬ a.toDouble.AreOppositeZeros b.toDouble) ∧
      (a.toDouble.AreOppositeZeros b.toDouble →
        a.compareValues b = .eq ∧ o = if a.toDouble.isNegative then .lt else .gt) := by
  refine ⟨a.order b, order_of_numbers hleft hright, ?_, ⟨?_, Number.order_eq_compareValues ha hb⟩,
    Number.order_of_areOppositeZeros⟩
  · rw [order_of_numbers hright hleft, Number.order_swap]
  · intro horder hzeros
    obtain ⟨hvalue, hfirst⟩ := Number.order_of_areOppositeZeros hzeros
    rw [horder, hvalue] at hfirst
    split at hfirst <;> cases hfirst

/-- `-0.0`. -/
def negativeZero : Double := ⟨0x8000000000000000⟩

lemma areOppositeZeros_negativeZero :
    (Number.double negativeZero).toDouble.AreOppositeZeros (Number.int 0).toDouble := by
  have hsign : (Double.ofInt 0).isNegative = false :=
    Double.isNegative_ofMagnitude (Double.isNearest_nearest 0 one_pos).lt_two_pow
  refine ⟨by decide, Double.magnitude_ofInt_eq_zero_iff.2 rfl, ?_⟩
  rw [Number.toDouble, Number.toDouble, Int64.toInt_zero, hsign]
  decide

theorem order_by_value_negativeZero :
    StandsFor (some (.string "-0.0")) (.double negativeZero) ∧ StandsFor none (.int 0) ∧
      (Number.double negativeZero).isNaN = false ∧ (Number.int 0).isNaN = false ∧
      ∃ o, order (some (.string "-0.0")) none = .ok o ∧
        order none (some (.string "-0.0")) = .ok o.swap ∧ o = .lt := by
  have hleft : StandsFor (some (.string "-0.0")) (.double negativeZero) :=
    coerce_eq_ok_iff.1 (by decide)
  refine ⟨hleft, .absent, by decide, rfl, ?_⟩
  obtain ⟨o, horder, hswap, -, hzeros⟩ := order_by_value hleft .absent (by decide) rfl
  exact ⟨o, horder, hswap, (hzeros areOppositeZeros_negativeZero).2⟩

/-- The negative zero is put before the integer zero, which has the same value. -/
theorem order_negativeZero_zero :
    (Number.double negativeZero).isNaN = false ∧ (Number.int 0).isNaN = false ∧
      order (some (.double negativeZero)) (some (.int 0)) = .ok .lt ∧
      (Number.double negativeZero).compareValues (.int 0) = .eq := by
  obtain ⟨hvalue, horder⟩ := Number.order_of_areOppositeZeros areOppositeZeros_negativeZero
  have hvalues : order (some (.double negativeZero)) (some (.int 0)) =
      .ok ((Number.double negativeZero).order (.int 0)) :=
    order_of_numbers (.number _) (.number _)
  exact ⟨by decide, rfl, hvalues.trans (congrArg Except.ok horder), hvalue⟩

end Value

end PageScript
