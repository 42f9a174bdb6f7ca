import PageScript.Proofs.Decimal.Rounding
import Mathlib.Order.WithBot
/-!
# The order of doubles

Magnitudes count the doubles without a minus sign upwards, so the larger magnitude has the larger
value.  Neighbouring magnitudes are a power of two of units apart, which only grows.

The total order puts doubles in the order of their values, the infinities at both ends, with one
exception: the two zeros have the same value, but the negative one comes first.
-/

namespace PageScript.Double

/-! ## Magnitudes -/

/-- A significand of 53 bits, doubled a number of times. -/
lemma units_shift {shift m : ℕ} (hm : m ≤ 2 ^ 53) (h : shift = 0 ∨ 2 ^ 52 ≤ m) :
    units (shift * 2 ^ 52 + m) = m * 2 ^ shift := by
  rw [units_eq]
  rcases Nat.lt_or_eq_of_le hm with hlt | rfl
  · have hshift : (shift * 2 ^ 52 + m) / 2 ^ 52 - 1 = shift := by omega
    rw [hshift, Nat.add_sub_cancel_left]
  · -- the next power of two is the least significand, doubled once more
    have hshift : (shift * 2 ^ 52 + 2 ^ 53) / 2 ^ 52 - 1 = shift + 1 := by omega
    have hsignificand : shift * 2 ^ 52 + 2 ^ 53 - (shift + 1) * 2 ^ 52 = 2 ^ 52 := by omega
    rw [hshift, hsignificand, pow_succ]
    ring

/-- Every magnitude is a significand and how often that is doubled. -/
lemma exists_shift (g : ℕ) :
    ∃ m, g = (g / 2 ^ 52 - 1) * 2 ^ 52 + m ∧ m < 2 ^ 53 ∧ (g / 2 ^ 52 - 1 = 0 ∨ 2 ^ 52 ≤ m) := by
  refine ⟨g - (g / 2 ^ 52 - 1) * 2 ^ 52, ?_, ?_, ?_⟩ <;> omega

/-- How far the next magnitude is. -/
lemma units_succ (g : ℕ) : units (g + 1) = units g + 2 ^ (g / 2 ^ 52 - 1) := by
  obtain ⟨m, hg, hm, hshift⟩ := exists_shift g
  generalize g / 2 ^ 52 - 1 = shift at hg hshift ⊢
  subst hg
  rw [Nat.add_assoc, units_shift (by omega) (by omega), units_shift (by omega) hshift]
  ring

lemma strictMono_units : StrictMono units := by
  refine strictMono_nat_of_lt_succ fun g => ?_
  rw [units_succ]
  exact Nat.lt_add_of_pos_right (Nat.two_pow_pos _)

@[simp]
lemma units_zero : units 0 = 0 := rfl

/-! ## Values -/

variable {x y : Double}

/-- The value of a double in units, with its sign. -/
def signedUnits (x : Double) : ℤ :=
  if x.isNegative then -(units x.magnitude : ℤ) else units x.magnitude

/-- The value of a double that is a number, with an infinity at each end. -/
def extended (x : Double) : WithBot (WithTop ℚ) :=
  if x.isFinite then ((x.value : WithTop ℚ) : WithBot (WithTop ℚ))
  else if x.isNegative then ⊥ else ⊤

/-- Whether two doubles are the two zeros. -/
def AreOppositeZeros (x y : Double) : Prop :=
  x.magnitude = 0 ∧ y.magnitude = 0 ∧ x.isNegative ≠ y.isNegative

instance : Decidable (AreOppositeZeros x y) := inferInstanceAs (Decidable (_ ∧ _ ∧ _))

lemma AreOppositeZeros.symm (h : AreOppositeZeros x y) : AreOppositeZeros y x :=
  ⟨h.2.1, h.1, h.2.2.symm⟩

lemma value_eq (x : Double) : x.value = (x.signedUnits : ℚ) / scale := by
  unfold value signedUnits
  split
  · push_cast
    ring
  · push_cast
    ring

/-- The zeros apart, the order by position is the order by units. -/
lemma signedUnits_lt_iff :
    x.signedUnits < y.signedUnits ↔ x.position < y.position ∧ ¬ AreOppositeZeros x y := by
  have hlt : units x.magnitude < units y.magnitude ↔ x.magnitude < y.magnitude :=
    strictMono_units.lt_iff_lt
  have hgt : units y.magnitude < units x.magnitude ↔ y.magnitude < x.magnitude :=
    strictMono_units.lt_iff_lt
  have hx : units x.magnitude = 0 ↔ x.magnitude = 0 := strictMono_units.injective.eq_iff' rfl
  have hy : units y.magnitude = 0 ↔ y.magnitude = 0 := strictMono_units.injective.eq_iff' rfl
  unfold signedUnits position AreOppositeZeros
  cases x.isNegative <;> cases y.isNegative <;>
    simp only [Bool.false_eq_true, if_true, if_false, ne_eq, not_true_eq_false, and_false,
      not_false_eq_true, and_true, reduceCtorEq] <;>
    omega

/-- A double that is a number is finite, or one of the infinities. -/
lemma extended_cases (hx : x.isNaN = false) :
    (x.extended = ((x.value : WithTop ℚ) : WithBot (WithTop ℚ)) ∧
        -units infinity < x.signedUnits ∧ x.signedUnits < units infinity) ∨
      (x.extended = ⊥ ∧ x.signedUnits = -units infinity) ∨
      (x.extended = ⊤ ∧ x.signedUnits = units infinity) := by
  unfold extended signedUnits
  cases hfinite : x.isFinite
  · have hmagnitude : x.magnitude = infinity := by
      simp only [isNaN, isFinite, decide_eq_false_iff_not] at hx hfinite
      omega
    rw [hmagnitude]
    cases x.isNegative
    · exact .inr (.inr ⟨rfl, rfl⟩)
    · exact .inr (.inl ⟨rfl, rfl⟩)
  · have hunits : units x.magnitude < units infinity :=
      strictMono_units (by simpa [isFinite] using hfinite)
    refine .inl ⟨rfl, ?_⟩
    split <;> omega

/-- Of two doubles that are numbers, the one with the smaller value has fewer units. -/
lemma extended_lt_iff (hx : x.isNaN = false) (hy : y.isNaN = false) :
    x.extended < y.extended ↔ x.signedUnits < y.signedUnits := by
  have hscale : (0 : ℚ) < scale := by exact_mod_cast scale_pos
  have hpositive : units 0 < units infinity := strictMono_units (by decide)
  rcases extended_cases hx with ⟨hxe, hxu⟩ | ⟨hxe, hxu⟩ | ⟨hxe, hxu⟩ <;>
    rcases extended_cases hy with ⟨hye, hyu⟩ | ⟨hye, hyu⟩ | ⟨hye, hyu⟩ <;> rw [hxe, hye]
  · rw [WithBot.coe_lt_coe, WithTop.coe_lt_coe, value_eq, value_eq,
      div_lt_div_iff_of_pos_right hscale, Int.cast_lt]
  · exact iff_of_false not_lt_bot (by omega)
  · exact iff_of_true (WithBot.coe_lt_coe.2 (WithTop.coe_lt_top _)) (by omega)
  · exact iff_of_true (WithBot.bot_lt_coe _) (by omega)
  · exact iff_of_false (lt_irrefl _) (by omega)
  · exact iff_of_true bot_lt_top (by omega)
  · exact iff_of_false not_top_lt (by omega)
  · exact iff_of_false not_top_lt (by omega)
  · exact iff_of_false not_top_lt (by omega)

/-- Doubles that are numbers are put in the order of their values, but for the two zeros. -/
theorem compare_position (hx : x.isNaN = false) (hy : y.isNaN = false)
    (hzeros : ¬ AreOppositeZeros x y) :
    compare x.position y.position = compare x.extended y.extended := by
  have hlt : x.extended < y.extended ↔ x.position < y.position := by
    rw [extended_lt_iff hx hy, signedUnits_lt_iff, and_iff_left hzeros]
  have hgt : y.extended < x.extended ↔ y.position < x.position := by
    rw [extended_lt_iff hy hx, signedUnits_lt_iff, and_iff_left fun h => hzeros h.symm]
  rcases lt_trichotomy x.extended y.extended with h | h | h
  · rw [compare_lt_iff_lt.2 h, compare_lt_iff_lt.2 (hlt.1 h)]
  · have heq : x.position = y.position :=
      le_antisymm (not_lt.1 fun hpos => (hgt.2 hpos).ne' h)
        (not_lt.1 fun hpos => (hlt.2 hpos).ne h)
    rw [compare_eq_iff_eq.2 h, compare_eq_iff_eq.2 heq]
  · rw [compare_gt_iff_gt.2 h, compare_gt_iff_gt.2 (hgt.1 h)]

/-- The two zeros have the same value, and the negative one comes first. -/
theorem AreOppositeZeros.compare_position (h : AreOppositeZeros x y) :
    x.extended = y.extended ∧
      compare x.position y.position = if x.isNegative then .lt else .gt := by
  obtain ⟨hx, hy, hsigns⟩ := h
  have hextended {z : Double} (hz : z.magnitude = 0) : z.extended = 0 := by
    have hfinite : z.isFinite := by simp [isFinite, hz, infinity]
    have hvalue : z.value = 0 := by simp [value, hz]
    rw [extended, if_pos hfinite, hvalue]
    rfl
  refine ⟨by rw [hextended hx, hextended hy], ?_⟩
  unfold position
  rw [hx, hy]
  cases hxs : x.isNegative <;> cases hys : y.isNegative
  · exact absurd (hxs.trans hys.symm) hsigns
  · rfl
  · rfl
  · exact absurd (hxs.trans hys.symm) hsigns

end PageScript.Double
