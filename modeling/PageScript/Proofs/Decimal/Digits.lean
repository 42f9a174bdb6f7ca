import PageScript.Decimal.Numeral
import PageScript.Decimal.Place
import Mathlib.Tactic.Linarith
import Mathlib.Tactic.Ring
/-!
# What decimals read as

A run of digits stands for a number, and the digits that a number is written with stand for that
number again.  So an integer of 64 bits reads back from its text, and the digits on both
sides of the point of a written decimal stand together for the whole number that it was cut from.
-/

namespace PageScript.Decimal

/-! ## Runs of digits -/

lemma isDigit_of_mem_digits {n : Nat} {c : Char} (h : c ∈ digits n) : c.isDigit :=
  Nat.isDigit_of_mem_toDigits (by decide) (by decide) h

lemma digits_ne_nil (n : Nat) : digits n ≠ [] := Nat.toDigits_ne_nil

@[simp] lemma ofDigits_digits (n : Nat) : ofDigits (digits n) = n :=
  Nat.ofDigitChars_ten_toDigits

lemma ofDigits_append (a b : List Char) :
    ofDigits (a ++ b) = ofDigits a * 10 ^ b.length + ofDigits b := by
  rw [ofDigits, Nat.ofDigitChars_append, Nat.ofDigitChars_eq_ofDigitChars_zero, Nat.mul_comm]
  rfl

lemma ofDigits_cons (c : Char) (ds : List Char) :
    ofDigits (c :: ds) = (c.toNat - '0'.toNat) * 10 ^ ds.length + ofDigits ds := by
  have h := ofDigits_append [c] ds
  simpa [ofDigits, Nat.ofDigitChars_cons] using h

lemma digit_value_le {c : Char} (h : c.isDigit) : c.toNat - '0'.toNat ≤ 9 := by
  simp only [Char.isDigit, ge_iff_le, Bool.and_eq_true, decide_eq_true_eq] at h
  have upper : c.toNat ≤ '9'.toNat := h.2
  have nine : '9'.toNat = '0'.toNat + 9 := by decide
  omega

/-- A run of `k` digits stands for less than `10 ^ k`. -/
lemma ofDigits_lt {ds : List Char} (h : ∀ c ∈ ds, c.isDigit) : ofDigits ds < 10 ^ ds.length := by
  induction ds with
  | nil => simp [ofDigits]
  | cons c ds ih =>
    have tail : ofDigits ds < 10 ^ ds.length := ih fun d hd => h d (List.mem_cons_of_mem _ hd)
    have head := digit_value_le (h c List.mem_cons_self)
    rw [ofDigits_cons, List.length_cons, pow_succ]
    nlinarith

/-! ## The digits after the point -/

lemma length_digits_of_leading_one {k m : Nat} (h : m < 10 ^ k) :
    (digits (10 ^ k + m)).length = k + 1 := by
  have upper : (digits (10 ^ k + m)).length ≤ k + 1 := by
    rw [digits, Nat.length_toDigits_le_iff (by decide) (Nat.succ_pos k), pow_succ]
    linarith
  have lower : ¬ (digits (10 ^ k + m)).length ≤ k := by
    intro hle
    rcases Nat.eq_zero_or_pos k with rfl | hk
    · exact digits_ne_nil _ (List.length_eq_zero_iff.1 (Nat.le_zero.1 hle))
    · rw [digits, Nat.length_toDigits_le_iff (by decide) hk] at hle
      linarith
  omega

/-- Written with a one and `k` digits, a number keeps those digits when the one is dropped. -/
lemma digits_leading_one {k m : Nat} (h : m < 10 ^ k) :
    ((digits (10 ^ k + m)).drop 1).length = k ∧ ofDigits ((digits (10 ^ k + m)).drop 1) = m := by
  have length := length_digits_of_leading_one h
  have value := ofDigits_digits (10 ^ k + m)
  have all : ∀ c ∈ digits (10 ^ k + m), c.isDigit := fun c hc => isDigit_of_mem_digits hc
  generalize digits (10 ^ k + m) = ds at length value all
  cases ds with
  | nil => simp at length
  | cons c ds =>
    have rest : ds.length = k := Nat.succ.inj length
    have small := ofDigits_lt fun d hd => all d (List.mem_cons_of_mem _ hd)
    rw [ofDigits_cons, rest] at value
    rw [rest] at small
    -- Both sides are a digit times `10 ^ k` and less than `10 ^ k`, so they agree in both.
    have one : c.toNat - '0'.toNat = 1 := by
      have quotient := congrArg (· / 10 ^ k) value
      have pos : 0 < 10 ^ k := pow_pos (by decide) k
      rw [Nat.mul_comm, Nat.mul_add_div pos, Nat.div_eq_of_lt small, Nat.add_div_left m pos,
        Nat.div_eq_of_lt h] at quotient
      simpa using quotient
    rw [one] at value
    exact ⟨rest, by simpa using value⟩

@[simp] lemma length_lastDigits (k n : Nat) : (lastDigits k n).length = k :=
  (digits_leading_one (Nat.mod_lt n (pow_pos (by decide) k))).1

@[simp] lemma ofDigits_lastDigits (k n : Nat) : ofDigits (lastDigits k n) = n % 10 ^ k :=
  (digits_leading_one (Nat.mod_lt n (pow_pos (by decide) k))).2

lemma isDigit_of_mem_lastDigits {k n : Nat} {c : Char} (h : c ∈ lastDigits k n) : c.isDigit :=
  isDigit_of_mem_digits (List.mem_of_mem_drop h)

/-- The digits before and after the point stand together for the number that was cut. -/
lemma ofDigits_places (n places : Nat) :
    ofDigits (digits (n / 10 ^ places) ++ lastDigits places n) = n := by
  rw [ofDigits_append, ofDigits_digits, length_lastDigits, ofDigits_lastDigits, Nat.mul_comm,
    Nat.div_add_mod]

/-! ## Integers -/

/-- The text of an integer is its decimal form. -/
lemma ofList_intText (z : Int) : String.ofList (intText z) = toString z := by
  cases z with
  | ofNat n =>
    rw [intText, if_neg (by simp)]
    rfl
  | negSucc n =>
    rw [intText, if_pos (Int.negSucc_lt_zero n), ← List.singleton_append, String.ofList_append]
    rfl

/-- What begins with a digit has no sign. -/
lemma splitSign_cons_of_isDigit {c : Char} (hc : c.isDigit) (rest : List Char) :
    splitSign (c :: rest) = (false, c :: rest) := by
  unfold splitSign
  split
  · next h =>
    obtain rfl := (List.cons.inj h).1
    exact absurd hc (by decide)
  · next h =>
    obtain rfl := (List.cons.inj h).1
    exact absurd hc (by decide)
  · rfl

lemma splitSign_digits_append (n : Nat) (rest : List Char) :
    splitSign (digits n ++ rest) = (false, digits n ++ rest) := by
  obtain ⟨d, ds, hds⟩ := List.exists_cons_of_ne_nil (digits_ne_nil n)
  have hd : d.isDigit := isDigit_of_mem_digits (hds ▸ List.mem_cons_self)
  rw [hds, List.cons_append, splitSign_cons_of_isDigit hd]

lemma splitSign_intText (z : Int) : splitSign (intText z) = (decide (z < 0), digits z.natAbs) := by
  have hdigits := splitSign_digits_append z.natAbs []
  rw [List.append_nil] at hdigits
  unfold intText
  split
  · next h => simp [splitSign, h]
  · next h => simp [hdigits, h]

/-- An integer reads back from its text. -/
lemma readInt?_intText (z : Int) : readInt? (intText z) = some z := by
  have all : (digits z.natAbs).all Char.isDigit :=
    List.all_eq_true.2 fun c hc => isDigit_of_mem_digits hc
  rw [readInt?, splitSign_intText]
  simp only [ofDigits_digits, all, Bool.and_true, Bool.not_eq_true', List.isEmpty_eq_false_iff,
    ne_eq, digits_ne_nil, not_false_eq_true, if_true, Option.some.injEq]
  unfold signed
  split
  · next h =>
    have : z < 0 := by simpa using h
    omega
  · next h =>
    have : ¬ z < 0 := by simpa using h
    omega

/-- An integer of 64 bits reads back from its text. -/
theorem readInt64?_intText (n : Int64) : readInt64? (intText n.toInt) = some n := by
  have lower := n.le_toInt
  have upper := n.toInt_lt
  rw [readInt64?, readInt?_intText]
  simp only [Option.bind_some, lower, upper, and_self, if_true, Int64.ofInt_toInt]

end PageScript.Decimal
