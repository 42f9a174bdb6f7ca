import PageScript.Proofs.Decimal.ReadBack
import Mathlib.Algebra.Order.Ring.Rat
import Mathlib.Tactic.NormNum
import Mathlib.Tactic.Linarith
import Mathlib.Tactic.Positivity
/-!
# Rounding half to even

The value of a finite double is a rational number.  A decimal with a given number of places is
found by one division of whole numbers; what that gives is the whole number nearest to the value,
scaled by a power of ten, and of two that are equally near the even one.
-/

namespace PageScript

/-- `n` is a whole number nearest to `q`; of two such numbers it is the even one. -/
structure IsNearestEven (q : ℚ) (n : ℕ) : Prop where
  /-- No whole number is nearer. -/
  abs_sub_le : |q - n| ≤ 1 / 2
  /-- Half way between two of them, it is the even one. -/
  even_of_tie : |q - n| = 1 / 2 → Even n

lemma isNearestEven_roundDiv (num : ℕ) {den : ℕ} (h : 0 < den) :
    IsNearestEven (num / den) (roundDiv num den) := by
  have hden : (0 : ℚ) < den := by exact_mod_cast h
  have hquotient : (num : ℚ) / den = (num / den : ℕ) + (num % den : ℕ) / (den : ℚ) := by
    rw [eq_comm, eq_div_iff hden.ne', add_mul, div_mul_cancel₀ _ hden.ne']
    exact_mod_cast Nat.div_add_mod' num den
  have hremainder : ((num % den : ℕ) : ℚ) < den := by exact_mod_cast Nat.mod_lt num h
  have hpos : (0 : ℚ) ≤ (num % den : ℕ) / (den : ℚ) := by positivity
  unfold roundDiv
  dsimp only
  split
  · next hdown =>
    have habs : |(num : ℚ) / den - (num / den : ℕ)| = (num % den : ℕ) / (den : ℚ) := by
      rw [hquotient, add_sub_cancel_left, abs_of_nonneg hpos]
    refine ⟨?_, fun htie => ?_⟩
    · rw [habs, div_le_div_iff₀ hden two_pos]
      have : 2 * (num % den) ≤ den := by omega
      have : (2 : ℚ) * (num % den : ℕ) ≤ den := by exact_mod_cast this
      linarith
    · rw [habs, div_eq_div_iff hden.ne' two_ne_zero] at htie
      have : num % den * 2 = 1 * den := by exact_mod_cast htie
      exact Nat.even_iff.2 (by omega)
  · next hup =>
    have habs : |(num : ℚ) / den - (num / den + 1 : ℕ)| = 1 - (num % den : ℕ) / (den : ℚ) := by
      have hle : (num % den : ℕ) / (den : ℚ) ≤ 1 := (div_le_one hden).2 hremainder.le
      rw [hquotient, abs_sub_comm, abs_of_nonneg] <;> push_cast <;> linarith
    refine ⟨?_, fun htie => ?_⟩
    · have : den ≤ 2 * (num % den) := by omega
      have : (den : ℚ) ≤ 2 * (num % den : ℕ) := by exact_mod_cast this
      have : 1 / 2 ≤ (num % den : ℕ) / (den : ℚ) := by
        rw [div_le_div_iff₀ two_pos hden]
        linarith
      rw [habs]
      linarith
    · have : (num % den : ℕ) / (den : ℚ) = 1 / 2 := by linarith
      rw [div_eq_div_iff hden.ne' two_ne_zero] at this
      have : num % den * 2 = 1 * den := by exact_mod_cast this
      exact Nat.even_iff.2 (by omega)

section IsNearestEven

variable {q : ℚ} {n k : ℕ}

lemma IsNearestEven.le_of_lt (h : IsNearestEven q n) (hq : q < k) : n ≤ k := by
  have hn : (n : ℚ) < k + 1 := by linarith [(abs_le.1 h.abs_sub_le).1]
  exact Nat.lt_succ_iff.1 (by exact_mod_cast hn)

lemma IsNearestEven.le_of_le (h : IsNearestEven q n) (hq : k ≤ q) : k ≤ n := by
  have hn : (k : ℚ) < n + 1 := by linarith [(abs_le.1 h.abs_sub_le).2]
  exact Nat.lt_succ_iff.1 (by exact_mod_cast hn)

end IsNearestEven

/-- The value of a finite double. -/
def Double.value (x : Double) : ℚ :=
  (if x.isNegative then -1 else 1) * (units x.magnitude / scale)

/-- A double without a minus sign is rounded to places half to even. -/
lemma Decimal.isNearestEven_fixed {x : Double} (h : x.isNegative = false) (places : ℕ) :
    IsNearestEven (x.value * 10 ^ places) (fixed x.magnitude places) := by
  have hvalue : x.value * 10 ^ places =
      ((Double.units x.magnitude * 10 ^ places : ℕ) : ℚ) / (Double.scale : ℕ) := by
    rw [Double.value, h, if_neg Bool.false_ne_true, one_mul, div_mul_eq_mul_div]
    push_cast
    rfl
  rw [hvalue]
  exact isNearestEven_roundDiv _ Double.scale_pos

end PageScript
