import PageScript.Decimal.Layout
import PageScript.Proofs.Decimal.Cut
import PageScript.Proofs.Decimal.Rounding
import PageScript.Proofs.Double.Scaling
/-!
# Numbers under a pattern

A number is written under a pattern exactly: its digits are those of its value, rounded half to even
to the places that the pattern allows; there are as many of them on either side of the point as the
pattern asks for, and no zero beyond these; commas stand where its digit groups end; and around
all this are the affixes of the number's sign.

What is written is the magnitude times the factor of the pattern, multiplied as doubles, and its
value is taken as it is then.
-/

namespace PageScript.Decimal

/-! ## Zeros at either end -/

lemma ofDigits_zeros (k : ℕ) : ofDigits (List.replicate k '0') = 0 := by
  induction k with
  | zero => rfl
  | succ k ih => rw [List.replicate_succ, ofDigits_cons, ih]; simp

/-- Zeros in front do not count. -/
lemma ofDigits_zeros_append (k : ℕ) (ds : List Char) :
    ofDigits (List.replicate k '0' ++ ds) = ofDigits ds := by
  rw [ofDigits_append, ofDigits_zeros, Nat.zero_mul, Nat.zero_add]

/-- The digits of a number other than zero do not begin with a zero. -/
lemma head?_digits_ne {n : ℕ} (hn : n ≠ 0) : (digits n).head? ≠ some '0' := by
  intro hhead
  obtain ⟨ds, hds⟩ := List.head?_eq_some_iff.1 hhead
  have hvalue : ofDigits ds = n := by
    rw [← ofDigits_digits n, hds, ofDigits_cons, Nat.sub_self, Nat.zero_mul, Nat.zero_add]
  have hlt : n < 10 ^ ds.length := by
    rw [← hvalue]
    refine ofDigits_lt fun c hc => isDigit_of_mem_digits (n := n) ?_
    rw [hds]
    exact List.mem_cons_of_mem _ hc
  rcases Nat.eq_zero_or_pos ds.length with hzero | hpos
  · rw [hzero, pow_zero] at hlt
    omega
  · have hle : (digits n).length ≤ ds.length :=
      (Nat.length_toDigits_le_iff (by decide) hpos).2 hlt
    rw [hds, List.length_cons] at hle
    omega

namespace Pattern

variable {p : Pattern}

/-! ## Digits before the point -/

lemma isDigit_of_mem_wholeDigits {n : ℕ} {c : Char} (h : c ∈ p.wholeDigits n) : c.isDigit := by
  rcases List.mem_append.1 h with h | h
  · rw [List.eq_of_mem_replicate h]
    rfl
  · split at h
    · simp at h
    · exact isDigit_of_mem_digits h

lemma ofDigits_wholeDigits (p : Pattern) (n : ℕ) : ofDigits (p.wholeDigits n) = n := by
  rw [wholeDigits, ofDigits_zeros_append]
  split
  · next h => rw [h]; rfl
  · exact ofDigits_digits n

lemma minWhole_le_length (p : Pattern) (n : ℕ) : p.minWhole ≤ (p.wholeDigits n).length := by
  rw [wholeDigits, List.length_append, List.length_replicate]
  omega

/-- Beyond the digits that the pattern asks for there is no zero in front. -/
lemma head?_wholeDigits_ne {n : ℕ} (h : p.minWhole < (p.wholeDigits n).length) :
    (p.wholeDigits n).head? ≠ some '0' := by
  unfold wholeDigits at h ⊢
  dsimp only at h ⊢
  rw [List.length_append, List.length_replicate] at h
  have hpad : p.minWhole - (if n = 0 then [] else digits n).length = 0 := by omega
  rw [hpad, List.replicate_zero, List.nil_append]
  split
  · simp
  · next hn => exact head?_digits_ne hn

/-! ## Digits after the point -/

section StripZeros

variable {least : ℕ} {ds : List Char}

lemma stripZeros_append_zeros (least : ℕ) (ds : List Char) :
    ∃ k, stripZeros least ds ++ List.replicate k '0' = ds := by
  refine ⟨((ds.drop least).reverse.takeWhile (· == '0')).length, ?_⟩
  have hzeros : (ds.drop least).reverse.takeWhile (· == '0') =
      List.replicate ((ds.drop least).reverse.takeWhile (· == '0')).length '0' :=
    List.eq_replicate_of_mem fun c hc => by simpa using List.mem_takeWhile_imp hc
  rw [stripZeros, List.append_assoc, ← List.reverse_replicate, ← hzeros, ← List.reverse_append,
    List.takeWhile_append_dropWhile, List.reverse_reverse, List.take_append_drop]

lemma stripZeros_subset : stripZeros least ds ⊆ ds := by
  obtain ⟨k, hk⟩ := stripZeros_append_zeros least ds
  intro c hc
  rw [← hk]
  exact List.mem_append_left _ hc

lemma length_stripZeros_le : (stripZeros least ds).length ≤ ds.length := by
  obtain ⟨k, hk⟩ := stripZeros_append_zeros least ds
  have := congrArg List.length hk
  rw [List.length_append] at this
  omega

lemma least_le_length_stripZeros (h : least ≤ ds.length) :
    least ≤ (stripZeros least ds).length := by
  rw [stripZeros, List.length_append, List.length_take]
  omega

/-- Beyond the digits that are kept in any case there is no zero at the end. -/
lemma getLast?_stripZeros_ne (h : least < (stripZeros least ds).length) :
    (stripZeros least ds).getLast? ≠ some '0' := by
  unfold stripZeros at h ⊢
  cases hkept : (ds.drop least).reverse.dropWhile (· == '0') with
  | nil =>
    rw [hkept] at h
    simp at h
  | cons c kept =>
    have hc := List.head?_dropWhile_not (· == '0') (ds.drop least).reverse
    rw [hkept] at hc
    simpa using hc

end StripZeros

/-! ## Digit groups -/

/-- `text` is `digits` with commas: one right before every digit, the first one apart, whose
distance to the end is a multiple of `size`, and none anywhere else. -/
structure IsGrouped (size : ℕ) (digits text : List Char) : Prop where
  /-- Without its commas the text is the digits. -/
  filter_eq : text.filter (· ≠ ',') = digits
  /-- Which digits have a comma right before them. -/
  comma_iff : ∀ before c after, text = before ++ c :: after → c ≠ ',' →
    (before.getLast? = some ',' ↔
      before.filter (· ≠ ',') ≠ [] ∧ size ∣ ((c :: after).filter (· ≠ ',')).length)
  /-- Right behind a comma there is a digit. -/
  exists_digit : ∀ before after, text = before ++ ',' :: after → ∃ c ∈ after.head?, c ≠ ','

namespace IsGrouped

variable {size : ℕ} {ds text : List Char} {c : Char}

lemma nil (size : ℕ) : IsGrouped size [] [] :=
  ⟨rfl, by simp, by simp⟩

/-- No comma comes first. -/
lemma head?_ne (h : IsGrouped size ds text) : text.head? ≠ some ',' := by
  intro hhead
  obtain ⟨after, htext⟩ := List.head?_eq_some_iff.1 hhead
  obtain ⟨c, hafter, hc⟩ := h.exists_digit [] after htext
  obtain ⟨after, rfl⟩ := List.head?_eq_some_iff.1 hafter
  have := (h.comma_iff [','] c after htext hc).1 rfl
  simp at this

/-- Behind the first digit only the distance to the end counts. -/
lemma comma_iff_of_ne (h : IsGrouped size ds text) {before after : List Char} {c : Char}
    (htext : text = before ++ c :: after) (hc : c ≠ ',') (hbefore : before ≠ []) :
    before.getLast? = some ',' ↔ size ∣ ((c :: after).filter (· ≠ ',')).length := by
  obtain ⟨d, before, rfl⟩ := List.exists_cons_of_ne_nil hbefore
  have hd : d ≠ ',' := by
    rintro rfl
    exact h.head?_ne (by rw [htext]; rfl)
  rw [h.comma_iff _ c after htext hc, and_iff_right]
  simp [hd]

/-- A digit in front of a group that goes on. -/
lemma cons (h : IsGrouped size ds text) (hc : c ≠ ',') (hsize : ds ≠ [] → ¬ size ∣ ds.length) :
    IsGrouped size (c :: ds) (c :: text) := by
  refine ⟨by simp [hc, ← h.filter_eq], ?_, ?_⟩
  · intro before d after htext hd
    rcases before with _ | ⟨c', before⟩
    · simp
    simp only [List.cons_append, List.cons.injEq] at htext
    obtain ⟨rfl, htext⟩ := htext
    rcases eq_or_ne before [] with rfl | hbefore
    · obtain rfl : text = d :: after := htext
      have hne : ds ≠ [] := by simp [← h.filter_eq, hd]
      rw [h.filter_eq]
      simp [hc, hsize hne]
    · have hlast : (c :: before).getLast? = before.getLast? := by
        rw [← List.singleton_append, List.getLast?_append_of_ne_nil _ hbefore]
      rw [hlast, h.comma_iff_of_ne htext hd hbefore, and_iff_right]
      simp [hc]
  · intro before after htext
    rcases before with _ | ⟨c', before⟩
    · exact absurd (List.cons.inj htext).1 hc
    · exact h.exists_digit before after (List.cons.inj htext).2

/-- A digit and a comma in front of whole groups. -/
lemma cons_comma (h : IsGrouped size ds text) (hc : c ≠ ',') (hne : ds ≠ [])
    (hsize : size ∣ ds.length) : IsGrouped size (c :: ds) (c :: ',' :: text) := by
  refine ⟨by simp [hc, ← h.filter_eq], ?_, ?_⟩
  · intro before d after htext hd
    rcases before with _ | ⟨c', _ | ⟨e, before⟩⟩
    · simp
    · obtain ⟨-, htext⟩ := List.cons.inj htext
      exact absurd (List.cons.inj htext).1.symm hd
    simp only [List.cons_append, List.cons.injEq] at htext
    obtain ⟨rfl, rfl, htext⟩ := htext
    rcases eq_or_ne before [] with rfl | hbefore
    · obtain rfl : text = d :: after := htext
      rw [h.filter_eq]
      simp [hc, hsize]
    · have hlast : (c :: ',' :: before).getLast? = before.getLast? :=
        List.getLast?_append_of_ne_nil [c, ','] hbefore
      rw [hlast, h.comma_iff_of_ne htext hd hbefore, and_iff_right]
      simp [hc]
  · intro before after htext
    rcases before with _ | ⟨c', _ | ⟨e, before⟩⟩
    · exact absurd (List.cons.inj htext).1 hc
    · obtain rfl : text = after := (List.cons.inj (List.cons.inj htext).2).2
      cases text with
      | nil => exact absurd h.filter_eq.symm hne
      | cons d text => exact ⟨d, rfl, fun hd => h.head?_ne (by rw [hd]; rfl)⟩
    · exact h.exists_digit before after (List.cons.inj (List.cons.inj htext).2).2

end IsGrouped

theorem isGrouped_group (size : ℕ) {ds : List Char} (h : ∀ c ∈ ds, c ≠ ',') :
    IsGrouped size ds (group size ds) := by
  induction ds with
  | nil => exact .nil size
  | cons c ds ih =>
    obtain ⟨hc, hds⟩ := List.forall_mem_cons.1 h
    unfold group
    split
    · next hcomma =>
      obtain ⟨hne, hsize⟩ : ds ≠ [] ∧ ds.length % size = 0 := by simpa using hcomma
      exact (ih hds).cons_comma hc hne (Nat.dvd_of_mod_eq_zero hsize)
    · next hcomma =>
      refine (ih hds).cons hc fun hne hsize => hcomma ?_
      simpa [hne] using Nat.mod_eq_zero_of_dvd hsize

/-! ## Numbers without affixes -/

/-- The digits `whole` before and `fraction` after the point write a value as the pattern asks
for. -/
structure Writes (p : Pattern) (value : ℚ) (whole fraction : List Char) : Prop where
  /-- They are digits. -/
  isDigit : ∀ c ∈ whole ++ fraction, c.isDigit
  /-- The decimal is the value, rounded half to even to the greatest number of places. -/
  nearest : ∃ n, IsNearestEven (value * 10 ^ p.maxFraction) n ∧
    (ofDigits (whole ++ fraction) : ℚ) / 10 ^ fraction.length = n / 10 ^ p.maxFraction
  /-- There are as many digits before the point as the pattern asks for. -/
  minWhole_le : p.minWhole ≤ whole.length
  /-- Beyond these there is no zero in front, but for a lone zero where there are no other digits. -/
  head?_whole : p.minWhole < whole.length → whole.head? = some '0' → whole = ['0'] ∧ fraction = []
  /-- There are as many digits after the point as the pattern asks for. -/
  minFraction_le : p.minFraction ≤ fraction.length
  /-- There are no more than it allows. -/
  length_fraction_le : fraction.length ≤ p.maxFraction
  /-- Beyond those it asks for there is no zero at the end. -/
  getLast?_fraction : p.minFraction < fraction.length → fraction.getLast? ≠ some '0'
  /-- There is some digit. -/
  ne_nil : whole ++ fraction ≠ []

/-- The digits after the point. -/
def fractionDigits (p : Pattern) (n : ℕ) : List Char :=
  stripZeros p.minFraction (lastDigits p.maxFraction n)

/-- The digits before the point, a lone zero where there would be no digit at all. -/
def leadingDigits (p : Pattern) (n : ℕ) : List Char :=
  let whole := p.wholeDigits (n / 10 ^ p.maxFraction)
  if whole.isEmpty && (p.fractionDigits n).isEmpty then ['0'] else whole

lemma leadingDigits_cases (p : Pattern) (n : ℕ) :
    (p.leadingDigits n = ['0'] ∧ p.fractionDigits n = [] ∧
        p.wholeDigits (n / 10 ^ p.maxFraction) = []) ∨
      (p.leadingDigits n = p.wholeDigits (n / 10 ^ p.maxFraction) ∧
        p.leadingDigits n ++ p.fractionDigits n ≠ []) := by
  unfold leadingDigits
  dsimp only
  split
  · next hempty =>
    obtain ⟨hwhole, hfraction⟩ :
        p.wholeDigits (n / 10 ^ p.maxFraction) = [] ∧ p.fractionDigits n = [] := by
      simpa using hempty
    exact .inl ⟨rfl, hfraction, hwhole⟩
  · next hdigits => exact .inr ⟨rfl, by simpa using hdigits⟩

/-- All digits together stand for the decimal. -/
lemma ofDigits_leadingDigits (p : Pattern) (n : ℕ) :
    (ofDigits (p.leadingDigits n ++ p.fractionDigits n) : ℚ) / 10 ^ (p.fractionDigits n).length =
      n / 10 ^ p.maxFraction := by
  obtain ⟨k, hk⟩ := stripZeros_append_zeros p.minFraction (lastDigits p.maxFraction n)
  have hlength : (p.fractionDigits n).length + k = p.maxFraction := by
    have := congrArg List.length hk
    rwa [List.length_append, List.length_replicate, length_lastDigits] at this
  have hwhole : ofDigits (p.leadingDigits n) = n / 10 ^ p.maxFraction := by
    rcases leadingDigits_cases p n with ⟨hleading, -, hwhole⟩ | ⟨hleading, -⟩
    · rw [hleading, ← ofDigits_wholeDigits p (n / 10 ^ p.maxFraction), hwhole]
      rfl
    · rw [hleading, ofDigits_wholeDigits]
  -- The zeros that were dropped make up the places that are missing.
  have hvalue : ofDigits (p.leadingDigits n ++ p.fractionDigits n) * 10 ^ k = n := by
    calc ofDigits (p.leadingDigits n ++ p.fractionDigits n) * 10 ^ k
        = ofDigits (p.leadingDigits n ++ (p.fractionDigits n ++ List.replicate k '0')) := by
          rw [← List.append_assoc, ofDigits_append _ (List.replicate k '0'), ofDigits_zeros,
            List.length_replicate, Nat.add_zero]
      _ = n / 10 ^ p.maxFraction * 10 ^ p.maxFraction + n % 10 ^ p.maxFraction := by
          rw [fractionDigits, hk, ofDigits_append, hwhole, length_lastDigits, ofDigits_lastDigits]
      _ = n := Nat.div_add_mod' n _
  rw [← hlength, div_eq_div_iff (by positivity) (by positivity), pow_add, mul_comm (10 ^ _) (10 ^ k),
    ← mul_assoc]
  congr 1
  exact_mod_cast hvalue

/-- The digits of the nearest decimal write the value. -/
theorem writes_digits {value : ℚ} {n : ℕ} (hplaces : p.minFraction ≤ p.maxFraction)
    (hn : IsNearestEven (value * 10 ^ p.maxFraction) n) :
    p.Writes value (p.leadingDigits n) (p.fractionDigits n) := by
  have hcases := leadingDigits_cases p n
  have hlength : (lastDigits p.maxFraction n).length = p.maxFraction := length_lastDigits _ _
  refine ⟨List.forall_mem_append.2 ⟨?_, ?_⟩, ⟨n, hn, ofDigits_leadingDigits p n⟩, ?_, ?_, ?_, ?_,
    getLast?_stripZeros_ne, ?_⟩
  · intro c hc
    rcases hcases with ⟨hleading, -⟩ | ⟨hleading, -⟩
    · obtain rfl : c = '0' := by simpa [hleading] using hc
      rfl
    · exact isDigit_of_mem_wholeDigits (hleading ▸ hc)
  · exact fun c hc => isDigit_of_mem_lastDigits (stripZeros_subset hc)
  · rcases hcases with ⟨-, -, hwhole⟩ | ⟨hleading, -⟩
    · have := minWhole_le_length p (n / 10 ^ p.maxFraction)
      rw [hwhole] at this
      exact Nat.le_trans this (Nat.zero_le _)
    · exact hleading ▸ minWhole_le_length p _
  · rcases hcases with ⟨hleading, hfraction, -⟩ | ⟨hleading, -⟩
    · exact fun _ _ => ⟨hleading, hfraction⟩
    · rw [hleading]
      exact fun hlt hhead => absurd hhead (head?_wholeDigits_ne hlt)
  · exact least_le_length_stripZeros (hplaces.trans hlength.ge)
  · exact hlength ▸ length_stripZeros_le
  · rcases hcases with ⟨hleading, -⟩ | ⟨-, hne⟩
    · simp [hleading]
    · exact hne

/-- `text` is a value, not below zero, as the pattern writes it without affixes. -/
def Lays (p : Pattern) (value : ℚ) (text : List Char) : Prop :=
  ∃ whole fraction grouped, p.Writes value whole fraction ∧
    (match p.grouping with
      | none => grouped = whole
      | some size => IsGrouped size whole grouped) ∧
    text = grouped ++ if fraction = [] then [] else '.' :: fraction

/-! ## Whole numbers with their affixes -/

/-- The affixes of a number, by its sign. -/
inductive HasAffixes (p : Pattern) : Bool → List Char → List Char → Prop
  /-- Without a minus sign. -/
  | positive {lead tail : List Char} (h : p.positive = (lead, tail)) : HasAffixes p false lead tail
  /-- With a minus sign, in a pattern with affixes for that. -/
  | negative {lead tail : List Char} (h : p.negative = some (lead, tail)) :
    HasAffixes p true lead tail
  /-- With a minus sign, in a pattern without. -/
  | minus {lead tail : List Char} (hnone : p.negative = none) (h : p.positive = (lead, tail)) :
    HasAffixes p true ('-' :: lead) tail

/-- `text` is a double as the pattern writes it: between the affixes of its sign there is the
product of its magnitude and the factor, or the sign of infinity. -/
def IsText (p : Pattern) (x : Double) (text : List Char) : Prop :=
  ∃ lead body tail, text = lead ++ body ++ tail ∧ p.HasAffixes x.isNegative lead tail ∧
    let scaled := x.abs * Double.ofInt p.factor
    scaled.isInfinite ∧ body = ['∞'] ∨ scaled.isFinite ∧ p.Lays scaled.value body

lemma hasAffixes_affixes (p : Pattern) (negative : Bool) :
    p.HasAffixes negative (p.affixes negative).1 (p.affixes negative).2 := by
  unfold affixes
  split
  · exact .positive rfl
  · next hown => exact .negative hown
  · next hnone => exact .minus hnone rfl

/-- The digits of a magnitude, grouped, and the point where there are digits behind it. -/
lemma body_eq (p : Pattern) (g : ℕ) :
    let fraction := p.fractionDigits (fixed g p.maxFraction)
    p.body g = (p.grouping.elim id group) (p.leadingDigits (fixed g p.maxFraction)) ++
      if fraction = [] then [] else '.' :: fraction := by
  intro fraction
  have hpoint (whole : List Char) : (if fraction.isEmpty then whole else whole ++ '.' :: fraction) =
      whole ++ if fraction = [] then [] else '.' :: fraction := by
    cases fraction <;> simp
  rw [← hpoint]
  unfold body
  cases p.grouping <;> rfl

/-- The text of a finite magnitude without affixes. -/
lemma lays_body (hplaces : p.minFraction ≤ p.maxFraction) {x : Double}
    (hx : x.isNegative = false) : p.Lays x.value (p.body x.magnitude) := by
  have hwrites := writes_digits hplaces (isNearestEven_fixed hx p.maxFraction)
  have hcomma : ∀ c ∈ p.leadingDigits (fixed x.magnitude p.maxFraction), c ≠ ',' := by
    rintro c hc rfl
    exact absurd (hwrites.isDigit ',' (List.mem_append_left _ hc)) (by decide)
  refine ⟨_, _, _, hwrites, ?_, body_eq p x.magnitude⟩
  cases p.grouping with
  | none => rfl
  | some size => exact isGrouped_group size hcomma

/-- Every double that is not undefined is written as the pattern asks for. -/
theorem isText_format {s : List Char} (hread : read? s = some p) {x : Double}
    (hx : x.isNaN = false) : p.IsText x (p.format x) := by
  obtain ⟨hsign, hnan⟩ := Double.scaled hx (factor_of_read? hread)
  unfold format
  dsimp only
  rw [if_neg (by simp [hx])]
  split
  · next hinfinite =>
    exact ⟨_, ['∞'], _, by simp, hasAffixes_affixes p _, .inl ⟨hinfinite, rfl⟩⟩
  · next hfinite =>
    refine ⟨_, _, _, rfl, hasAffixes_affixes p _, .inr ⟨?_, ?_⟩⟩
    · simp only [Double.isInfinite, Double.isNaN, Double.isFinite, decide_eq_true_eq,
        decide_eq_false_iff_not] at hfinite hnan ⊢
      omega
    · exact lays_body (minFraction_le_of_read? hread) hsign

/-- A pattern with digit groups and with affixes for negative numbers. -/
def accountPattern : Pattern where
  positive := ([], [])
  negative := some (['('], [')'])
  factor := 1
  minWhole := 1
  minFraction := 1
  maxFraction := 2
  grouping := some 3

/-- The double `-1234.5`. -/
def accountAmount : Double := ⟨0xC0934A0000000000⟩

example : accountPattern.format accountAmount = "(1,234.5)".toList := by decide +kernel

/-- A negative amount is written as such a pattern asks for. -/
theorem isText_accountAmount :
    read? "#,##0.0#;(#)".toList = some accountPattern ∧ accountAmount.isNaN = false ∧
      accountPattern.IsText accountAmount (accountPattern.format accountAmount) := by
  have hread : read? "#,##0.0#;(#)".toList = some accountPattern := by decide
  have hnumber : accountAmount.isNaN = false := by decide
  exact ⟨hread, hnumber, isText_format hread hnumber⟩

end Pattern

end PageScript.Decimal
