import PageScript.Proofs.Decimal.Digits
import Mathlib.Data.List.TakeWhile
import Mathlib.Tactic.GCongr
import Mathlib.Tactic.Positivity
/-!
# Doubles read back from their text

The decimal that a finite double is written as is the first one, by its number of places, whose nearest
double is that double.  The search for it is over at 1074 places, where the
value of every double is exact; and the nearest double to an exact value is the one that has
it.  The reader rounds to the nearest double too, so every finite double reads back from its text,
with its sign.
-/

namespace PageScript

/-! ## The nearest double to the value of a double -/

lemma roundDiv_mul {k d : Nat} (h : 0 < d) : roundDiv (k * d) d = k := by
  have remainder : k * d % d = 0 := Nat.mul_mod_left k d
  have quotient : k * d / d = k := Nat.mul_div_cancel k h
  simp [roundDiv, remainder, quotient, h]

lemma roundDiv_eq_zero {n d : Nat} (h : 2 * n < d) : roundDiv n d = 0 := by
  have quotient : n / d = 0 := Nat.div_eq_of_lt (by omega)
  have remainder : n % d = n := Nat.mod_eq_of_lt (by omega)
  simp [roundDiv, quotient, remainder, h]

namespace Double

lemma scale_pos : 0 < scale := pow_pos (by decide) places

/-- A decimal with that many places has a whole number of units. -/
lemma scale_dvd : scale ∣ 10 ^ places := pow_dvd_pow_of_dvd (by decide) places

/-- How far the magnitude of a double is doubled: its value has 53 bits up to that. -/
lemma log2_units_sub (g : Nat) : (units g).log2 - 52 = g / 2 ^ 52 - 1 := by
  unfold units
  split
  · next h =>
    have small : g.log2 ≤ 52 := by
      rcases Nat.eq_zero_or_pos g with rfl | hg
      · simp
      · exact Nat.le_of_lt ((Nat.log2_lt (by omega)).2 h)
    rw [Nat.sub_eq_zero_of_le small, Nat.div_eq_of_lt h]
  · next h =>
    have low : g % 2 ^ 52 < 2 ^ 52 := Nat.mod_lt g (by positivity)
    have log : ((2 ^ 52 + g % 2 ^ 52) * 2 ^ (g / 2 ^ 52 - 1)).log2 = 52 + (g / 2 ^ 52 - 1) := by
      rw [Nat.log2_eq_iff (by positivity), pow_add, Nat.add_right_comm, pow_add]
      constructor
      · exact Nat.mul_le_mul_right _ (Nat.le_add_right _ _)
      · exact Nat.mul_lt_mul_of_pos_right (by omega) (by positivity)
    rw [log, Nat.add_sub_cancel_left]

/-- The value of a magnitude is its significand, doubled as often as its upper bits say. -/
lemma units_eq (g : Nat) :
    units g = (g - (g / 2 ^ 52 - 1) * 2 ^ 52) * 2 ^ (g / 2 ^ 52 - 1) := by
  unfold units
  split
  · next h =>
    rw [Nat.div_eq_of_lt h, Nat.zero_sub, Nat.zero_mul, Nat.sub_zero, pow_zero, Nat.mul_one]
  · next h =>
    have split := Nat.div_add_mod g (2 ^ 52)
    have positive : 1 ≤ g / 2 ^ 52 := (Nat.one_le_div_iff (by positivity)).2 (Nat.le_of_not_lt h)
    obtain ⟨q, hq⟩ := Nat.exists_eq_add_of_le positive
    rw [hq] at split ⊢
    have significand : g - (1 + q - 1) * 2 ^ 52 = 2 ^ 52 + g % 2 ^ 52 := by omega
    rw [significand]

/-- The nearest double to the exact value of a finite double is that double. -/
theorem nearest_of_exact {num den g : Nat} (hg : g < infinity) (hden : 0 < den)
    (h : num * scale = units g * den) : nearest num den = g := by
  have value : num * scale / den = units g := by rw [h, Nat.mul_div_cancel _ hden]
  have product : num * scale =
      (g - (g / 2 ^ 52 - 1) * 2 ^ 52) * (den * 2 ^ (g / 2 ^ 52 - 1)) := by
    rw [h]
    conv_lhs => rw [units_eq]
    ring
  have sum : (g / 2 ^ 52 - 1) * 2 ^ 52 + (g - (g / 2 ^ 52 - 1) * 2 ^ 52) = g := by
    have := Nat.div_mul_le_self g (2 ^ 52)
    omega
  simp only [nearest, value, log2_units_sub]
  rw [product, roundDiv_mul (by positivity), sum]
  exact Nat.min_eq_left (Nat.le_of_lt hg)

/-- Of every ratio below half a unit, zero is the nearest double. -/
lemma nearest_eq_zero {num den : Nat} (h : 2 * (num * scale) < den) : nearest num den = 0 := by
  have value : num * scale / den = 0 := Nat.div_eq_of_lt (by omega)
  simp [nearest, value, roundDiv_eq_zero h]

end Double

namespace Decimal

/-! ## The search for the fewest places -/

lemma readsAs_of_closest? {g places n : Nat} (h : closest? g places = some n) :
    readsAs g places n := by
  unfold closest? at h
  dsimp only at h
  split at h
  · next hlow => exact Option.some.inj h ▸ hlow.1
  split at h
  · next hhigh => exact Option.some.inj h ▸ hhigh
  · simp at h

lemma units_mul_scale (g : Nat) :
    Double.units g * 10 ^ Double.places / Double.scale * Double.scale =
      Double.units g * 10 ^ Double.places :=
  Nat.div_mul_cancel (Dvd.dvd.mul_left Double.scale_dvd _)

/-- The decimal that a finite double is written as has that double as its nearest one. -/
theorem nearest_of_fewestPlaces {g places n : Nat} (hg : g < Double.infinity)
    (h : fewestPlaces g = (places, n)) : Double.nearest n (10 ^ places) = g := by
  unfold fewestPlaces at h
  dsimp only at h
  generalize hfound : List.findSome? _ _ = found at h
  cases found with
  | none =>
    rw [Option.getD_none, Prod.mk.injEq] at h
    obtain ⟨rfl, rfl⟩ := h
    exact Double.nearest_of_exact hg (pow_pos (by decide) Double.places) (units_mul_scale g)
  | some decimal =>
    rw [Option.getD_some] at h
    obtain ⟨p, -, hp⟩ := List.exists_of_findSome?_eq_some hfound
    obtain ⟨m, hm, hdecimal⟩ := Option.map_eq_some_iff.1 hp
    rw [h, Prod.mk.injEq] at hdecimal
    obtain ⟨rfl, rfl⟩ := hdecimal
    exact beq_iff_eq.1 (readsAs_of_closest? hm)

/-! ## Reading the text -/

/-- What reading a decimal skips for being too small would round to zero anyway. -/
lemma nearest_eq_zero_of_log2_le {n places : Nat} (h : n.log2 + 1100 ≤ places) :
    Double.nearest n (10 ^ places) = 0 := by
  apply Double.nearest_eq_zero
  have bound : n < 2 ^ (n.log2 + 1) := Nat.lt_log2_self
  have exponent : Double.places = 1074 := by
    unfold Double.places
    rfl
  calc 2 * (n * Double.scale)
      < 2 * (2 ^ (n.log2 + 1) * Double.scale) := by
        have := Double.scale_pos
        gcongr
    _ = 2 ^ (1 + (n.log2 + 1 + Double.places)) := by
        rw [Double.scale, pow_add 2 1, pow_add 2 (n.log2 + 1), pow_one]
    _ ≤ 2 ^ places := Nat.pow_le_pow_right (by decide) (by omega)
    _ ≤ 10 ^ places := Nat.pow_le_pow_left (by decide) places

/-- Reading a decimal without an exponent rounds it to the nearest double. -/
theorem scientific_neg (n places : Nat) :
    scientific n (-(places : Int)) = Double.nearest n (10 ^ places) := by
  unfold scientific
  split
  · next h =>
    rw [h, Double.nearest_eq_zero]
    rw [zero_mul, mul_zero]
    exact pow_pos (by decide) places
  split
  · next h => omega
  split
  · next h => exact (nearest_eq_zero_of_log2_le (by omega)).symm
  · have whole : (-(places : Int)).toNat = 0 := by omega
    have parts : (-(-(places : Int))).toNat = places := by omega
    rw [whole, parts, pow_zero, mul_one]

/-- Digits on both sides of a point read as the nearest double to the decimal they write. -/
lemma readDouble?_of_splitSign {s whole fraction : List Char} {negative : Bool}
    (hs : splitSign s = (negative, whole ++ '.' :: fraction)) (hwhole : ∀ c ∈ whole, c.isDigit)
    (hfraction : ∀ c ∈ fraction, c.isDigit) (hne : whole ≠ []) :
    readDouble? s = some (Double.ofMagnitude negative
      (Double.nearest (ofDigits (whole ++ fraction)) (10 ^ fraction.length))) := by
  have before : (whole ++ '.' :: fraction).takeWhile Char.isDigit = whole := by
    rw [List.takeWhile_append_of_pos hwhole]
    simp
  have after : (whole ++ '.' :: fraction).dropWhile Char.isDigit = '.' :: fraction := by
    rw [List.dropWhile_append_of_pos hwhole]
    simp
  have places : splitFraction ('.' :: fraction) = (fraction, []) := by
    rw [splitFraction, List.takeWhile_eq_self_iff.2 hfraction,
      List.dropWhile_eq_nil_iff.2 hfraction]
  simp only [readDouble?, hs, before, after, places, readExponent?, Option.map_some]
  rw [if_neg (by simp [hne]), zero_sub, scientific_neg]

/-- A written decimal reads as the nearest double to it. -/
lemma readDouble?_placesText (n places : Nat) :
    readDouble? (placesText n places) =
      some (Double.ofMagnitude false (Double.nearest n (10 ^ places))) ∧
    readDouble? ('-' :: placesText n places) =
      some (Double.ofMagnitude true (Double.nearest n (10 ^ places))) := by
  have whole : ∀ c ∈ digits (n / 10 ^ places), c.isDigit := fun c hc => isDigit_of_mem_digits hc
  have fraction : ∀ c ∈ lastDigits places n, c.isDigit :=
    fun c hc => isDigit_of_mem_lastDigits hc
  have positive : splitSign (placesText n places) = (false, placesText n places) :=
    splitSign_digits_append _ _
  constructor
  · rw [readDouble?_of_splitSign positive whole fraction (digits_ne_nil _), ofDigits_places,
      length_lastDigits]
  · have negative : splitSign ('-' :: placesText n places) = (true, placesText n places) := rfl
    rw [readDouble?_of_splitSign negative whole fraction (digits_ne_nil _), ofDigits_places,
      length_lastDigits]

/-- Every finite double reads back from its text, the sign of zero included. -/
theorem readDouble?_doubleText {x : Double} (h : x.isFinite) :
    readDouble? (doubleText x) = some x := by
  have finite : x.magnitude < Double.infinity := by simpa [Double.isFinite] using h
  have back := Double.ofMagnitude_magnitude x
  unfold doubleText
  generalize found : fewestPlaces x.magnitude = decimal
  obtain ⟨places, n⟩ := decimal
  have nearest := nearest_of_fewestPlaces finite found
  rw [signedText]
  cases sign : x.isNegative with
  | true =>
    rw [sign] at back
    rw [if_pos rfl, (readDouble?_placesText n places).2, nearest, back]
  | false =>
    rw [sign] at back
    rw [if_neg Bool.false_ne_true, (readDouble?_placesText n places).1, nearest, back]

end Decimal

end PageScript
