import PageScript.Proofs.Double.Order
import Mathlib.Data.Nat.Cast.Order.Field
/-!
# The nearest double

The double nearest to a ratio is found by one division: of the ratio, in steps as far apart as
doubles are around there, rounded half to even.  This module says what is found without that
division.  No magnitude has a value nearer to the ratio, and of two that are equally near it is the
even one.  For that, infinity stands for the power of two after the largest finite double; so a ratio
is rounded to infinity from half way between these two on.
-/

namespace PageScript.Double

/-- The value of a magnitude; that of infinity is the power of two after the largest finite
double. -/
def valueOf (g : ℕ) : ℚ := units g / scale

/-- `g` is the magnitude whose value is nearest to `q`; of two such magnitudes it is the even
one. -/
structure IsNearest (q : ℚ) (g : ℕ) : Prop where
  /-- Infinity is the last magnitude. -/
  le_infinity : g ≤ infinity
  /-- No magnitude is nearer. -/
  abs_sub_le : ∀ k ≤ infinity, |q - valueOf g| ≤ |q - valueOf k|
  /-- If another one is as near, it is the even one. -/
  even_of_tie : ∀ k ≤ infinity, k ≠ g → |q - valueOf g| = |q - valueOf k| → Even g

lemma strictMono_valueOf : StrictMono valueOf := by
  intro g k h
  have hscale : (0 : ℚ) < scale := by exact_mod_cast scale_pos
  unfold valueOf
  rw [div_lt_div_iff_of_pos_right hscale]
  exact_mod_cast strictMono_units h

/-! ## There is one nearest magnitude -/

variable {q : ℚ} {g k : ℕ}

/-- Of two nearest magnitudes the first is not smaller: they would both be even, and the odd one
between them would be nearer. -/
lemma IsNearest.le (hg : IsNearest q g) (hk : IsNearest q k) : k ≤ g := by
  by_contra! hlt
  have hsame : |q - valueOf g| = |q - valueOf k| :=
    le_antisymm (hg.abs_sub_le k hk.le_infinity) (hk.abs_sub_le g hg.le_infinity)
  have hgeven := hg.even_of_tie k hk.le_infinity hlt.ne' hsame
  have hkeven := hk.even_of_tie g hg.le_infinity hlt.ne hsame.symm
  have hbetween : g + 1 < k := by
    rw [Nat.even_iff] at hgeven hkeven
    omega
  have hlow := strictMono_valueOf (Nat.lt_succ_self g)
  have hhigh := strictMono_valueOf hbetween
  have hnext := hg.abs_sub_le (g + 1) (by have := hk.le_infinity; omega)
  rcases abs_cases (q - valueOf g) with ⟨h₁, h₁'⟩ | ⟨h₁, h₁'⟩ <;>
    rcases abs_cases (q - valueOf k) with ⟨h₂, h₂'⟩ | ⟨h₂, h₂'⟩ <;>
    rcases abs_cases (q - valueOf (g + 1)) with ⟨h₃, h₃'⟩ | ⟨h₃, h₃'⟩ <;>
    linarith

theorem IsNearest.unique (hg : IsNearest q g) (hk : IsNearest q k) : g = k :=
  le_antisymm (hk.le hg) (hg.le hk)

/-- A nearest magnitude leaves the sign bit alone. -/
lemma IsNearest.lt_two_pow (h : IsNearest q g) : g < 2 ^ 63 :=
  lt_of_le_of_lt h.le_infinity (by decide)

/-- What is too large for a finite double is nearest to infinity. -/
lemma isNearest_infinity (h : valueOf infinity ≤ q) : IsNearest q infinity where
  le_infinity := le_rfl
  abs_sub_le k hk := by
    have hvalue := strictMono_valueOf.monotone hk
    rw [abs_of_nonneg (by linarith), abs_of_nonneg (by linarith)]
    linarith
  even_of_tie _ _ _ _ := by decide

/-- If no magnitude at all is preferred to `g`, then up to infinity `g` is nearest, or infinity if
`g` is beyond it. -/
lemma isNearest_min (h : ∀ k ≠ g, |q - valueOf g| ≤ |q - valueOf k| ∧
    (|q - valueOf g| = |q - valueOf k| → Even g)) : IsNearest q (min g infinity) := by
  rcases le_or_gt g infinity with hle | hlt
  · rw [Nat.min_eq_left hle]
    refine ⟨hle, fun k _ => ?_, fun k _ hk => (h k hk).2⟩
    by_cases hk : k = g
    · rw [hk]
    · exact (h k hk).1
  · rw [Nat.min_eq_right hlt.le]
    refine isNearest_infinity ?_
    by_contra! hbelow
    -- below infinity, infinity is nearer than what is beyond it
    have hvalue := strictMono_valueOf hlt
    have hinfinity := (h infinity hlt.ne).1
    rw [abs_of_neg (by linarith), abs_of_neg (by linarith)] at hinfinity
    linarith

/-! ## Rounding finds it -/

section Steps

variable {shift m : ℕ}

/-- Larger magnitudes are a step away. -/
lemma units_add_step_le (hm : m ≤ 2 ^ 53) (hshift : shift = 0 ∨ 2 ^ 52 ≤ m)
    (hk : shift * 2 ^ 52 + m < k) : units (shift * 2 ^ 52 + m) + 2 ^ shift ≤ units k := by
  have hpow : 2 ^ shift ≤ 2 ^ ((shift * 2 ^ 52 + m) / 2 ^ 52 - 1) :=
    Nat.pow_le_pow_right (by decide) (by omega)
  calc units (shift * 2 ^ 52 + m) + 2 ^ shift
      ≤ units (shift * 2 ^ 52 + m + 1) := by
        rw [units_succ]
        exact Nat.add_le_add_left hpow _
    _ ≤ units k := strictMono_units.monotone hk

/-- Smaller magnitudes are a step away too, except from the least significand. -/
lemma units_add_step_le_of_lt (hm : m ≤ 2 ^ 53) (hshift : shift = 0 ∨ 2 ^ 52 < m)
    (hk : k < shift * 2 ^ 52 + m) : units k + 2 ^ shift ≤ units (shift * 2 ^ 52 + m) := by
  obtain ⟨n, rfl⟩ : ∃ n, m = n + 1 := Nat.exists_eq_add_one_of_ne_zero (by omega)
  calc units k + 2 ^ shift
      ≤ units (shift * 2 ^ 52 + n) + 2 ^ shift :=
        Nat.add_le_add_right (strictMono_units.monotone (by omega)) _
    _ = units (shift * 2 ^ 52 + (n + 1)) := by
        rw [units_shift (by omega) (by omega), units_shift hm (by omega)]
        ring

/-- What is at most half a step from `a` is not nearer to what is a step or more from `a`. -/
lemma abs_sub_le_of_step {u a b step : ℚ} (hhalf : |u - a| ≤ step / 2) (hb : step ≤ |b - a|) :
    |u - a| ≤ |u - b| ∧ (|u - a| = |u - b| → |u - a| = step / 2) := by
  have htriangle : |b - a| ≤ |u - b| + |u - a| := by
    rw [abs_sub_comm u b]
    exact abs_sub_le b u a
  constructor
  · linarith
  · intro htie
    linarith

/-- To the magnitude of a significand that is nearest to a number of steps none is preferred. -/
lemma not_preferred {u : ℚ} (hm : m ≤ 2 ^ 53) (hshift : shift = 0 ∨ 2 ^ 52 ≤ m)
    (hlow : shift = 0 ∨ (2 ^ 52 : ℚ) ≤ u / 2 ^ shift) (hnearest : IsNearestEven (u / 2 ^ shift) m)
    (hk : k ≠ shift * 2 ^ 52 + m) :
    |u - units (shift * 2 ^ 52 + m)| ≤ |u - units k| ∧
      (|u - units (shift * 2 ^ 52 + m)| = |u - units k| → Even (shift * 2 ^ 52 + m)) := by
  have hstep : (0 : ℚ) < 2 ^ shift := by positivity
  have hvalue : (units (shift * 2 ^ 52 + m) : ℚ) = m * 2 ^ shift := by
    rw [units_shift hm hshift]
    push_cast
    rfl
  have hdistance : |u - units (shift * 2 ^ 52 + m)| = |u / 2 ^ shift - m| * 2 ^ shift := by
    rw [hvalue, ← abs_of_pos hstep, ← abs_mul, abs_of_pos hstep, sub_mul,
      div_mul_cancel₀ _ hstep.ne']
  have hhalf : |u - units (shift * 2 ^ 52 + m)| ≤ 2 ^ shift / 2 := by
    have := hnearest.abs_sub_le
    rw [hdistance]
    nlinarith
  have heven (htie : |u - units (shift * 2 ^ 52 + m)| = 2 ^ shift / 2) :
      Even (shift * 2 ^ 52 + m) := by
    rw [hdistance] at htie
    have hmeven := Nat.even_iff.1 (hnearest.even_of_tie (mul_right_cancel₀ hstep.ne' (by linarith)))
    exact Nat.even_iff.2 (by omega)
  have haway (hfar : (2 : ℚ) ^ shift ≤ |(units k : ℚ) - units (shift * 2 ^ 52 + m)|) :
      |u - units (shift * 2 ^ 52 + m)| ≤ |u - units k| ∧
        (|u - units (shift * 2 ^ 52 + m)| = |u - units k| → Even (shift * 2 ^ 52 + m)) :=
    (abs_sub_le_of_step hhalf hfar).imp_right fun h htie => heven (h htie)
  rcases Nat.lt_or_gt_of_ne hk with hlt | hgt
  · by_cases hleast : shift = 0 ∨ 2 ^ 52 < m
    · refine haway ?_
      have hsteps : (units k : ℚ) + 2 ^ shift ≤ units (shift * 2 ^ 52 + m) := by
        exact_mod_cast units_add_step_le_of_lt hm hleast hlt
      rw [abs_sub_comm]
      exact le_trans (by linarith) (le_abs_self _)
    · -- Below the least significand doubles are closer together, but `u` is not below it.
      obtain rfl : m = 2 ^ 52 := by omega
      have habove : (units (shift * 2 ^ 52 + 2 ^ 52) : ℚ) ≤ u := by
        rw [hvalue]
        have := hlow.resolve_left (by omega)
        rw [le_div_iff₀ hstep] at this
        exact_mod_cast this
      have hbelow : (units k : ℚ) < units (shift * 2 ^ 52 + 2 ^ 52) := by
        exact_mod_cast strictMono_units hlt
      rw [abs_of_nonneg (by linarith), abs_of_nonneg (by linarith)]
      exact ⟨by linarith, fun htie => by linarith⟩
  · refine haway ?_
    have hsteps : (units (shift * 2 ^ 52 + m) : ℚ) + 2 ^ shift ≤ units k := by
      exact_mod_cast units_add_step_le hm hshift hgt
    exact le_trans (by linarith) (le_abs_self _)

end Steps

/-- Distances told in units. -/
lemma abs_sub_valueOf (q : ℚ) (k : ℕ) : |q - valueOf k| = |q * scale - units k| / scale := by
  have hscale : (0 : ℚ) < scale := by exact_mod_cast scale_pos
  rw [valueOf, ← abs_of_pos hscale, ← abs_div, abs_of_pos hscale, sub_div,
    mul_div_cancel_right₀ _ hscale.ne']

/-- The first 53 bits of a ratio: what is left when it is halved as often as `nearest` does. -/
lemma significand_bounds (num : ℕ) {den : ℕ} (hden : 0 < den) :
    let shift := (num / den).log2 - 52
    (num / den / 2 ^ shift : ℚ) < 2 ^ 53 ∧
      (shift = 0 ∨ (2 ^ 52 : ℚ) ≤ num / den / 2 ^ shift) := by
  intro shift
  have hden' : (0 : ℚ) < den := by exact_mod_cast hden
  have hstep : (0 : ℚ) < 2 ^ shift := by positivity
  have hfloor : ((num / den : ℕ) : ℚ) ≤ num / den := Nat.cast_div_le
  have hnext : (num / den : ℚ) < (num / den : ℕ) + 1 := by
    rw [div_lt_iff₀ hden']
    exact_mod_cast Nat.lt_mul_of_div_lt (Nat.lt_succ_self _) hden
  constructor
  · have hbits : num / den + 1 ≤ 2 ^ 53 * 2 ^ shift := by
      rw [← pow_add]
      exact le_trans Nat.lt_log2_self (Nat.pow_le_pow_right (by decide) (by omega))
    rw [div_lt_iff₀ hstep]
    refine lt_of_lt_of_le hnext ?_
    exact_mod_cast hbits
  · rcases Nat.eq_zero_or_pos shift with h | h
    · exact .inl h
    · have hne : num / den ≠ 0 := by
        intro hzero
        simp [shift, hzero] at h
      have hbits : 2 ^ 52 * 2 ^ shift ≤ num / den := by
        rw [← pow_add]
        exact le_trans (Nat.pow_le_pow_right (by decide) (by omega)) (Nat.log2_self_le hne)
      right
      rw [le_div_iff₀ hstep]
      refine le_trans ?_ hfloor
      exact_mod_cast hbits

/-- The magnitude that `nearest` gives is the one nearest to the ratio. -/
theorem isNearest_nearest (num : ℕ) {den : ℕ} (hden : 0 < den) :
    IsNearest (num / den) (nearest num den) := by
  have hscale : (0 : ℚ) < scale := by exact_mod_cast scale_pos
  let shift := (num * scale / den).log2 - 52
  let m := roundDiv (num * scale) (den * 2 ^ shift)
  have hu : (num / den : ℚ) * scale = (num * scale : ℕ) / den := by
    push_cast
    ring
  have hnearest : IsNearestEven ((num * scale : ℕ) / den / 2 ^ shift) m := by
    have hstep : 0 < den * 2 ^ shift := Nat.mul_pos hden (Nat.two_pow_pos shift)
    have h := isNearestEven_roundDiv (num * scale) hstep
    push_cast at h ⊢
    rwa [← div_div] at h
  obtain ⟨hhigh, hlow⟩ := significand_bounds (num * scale) hden
  have hm : m ≤ 2 ^ 53 := hnearest.le_of_lt hhigh
  have hshift : shift = 0 ∨ 2 ^ 52 ≤ m :=
    hlow.imp_right fun h => hnearest.le_of_le (by exact_mod_cast h)
  refine isNearest_min (g := shift * 2 ^ 52 + m) fun k hk => ?_
  have hpreferred := not_preferred hm hshift hlow hnearest hk
  rwa [abs_sub_valueOf, abs_sub_valueOf, hu, div_le_div_iff_of_pos_right hscale,
    div_left_inj' hscale.ne']

end PageScript.Double
