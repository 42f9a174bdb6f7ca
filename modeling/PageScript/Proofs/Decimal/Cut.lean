import PageScript.Decimal.Pattern
import Mathlib.Data.List.TakeWhile
/-!
# Reading a pattern in two steps

A pattern is read in two steps: it is cut into its parts, and then the parts are checked and given
their meaning.  Where the cuts are depends on the characters alone.
-/

namespace PageScript.Decimal.Pattern

/-- The parts of a pattern, cut out of its text: affixes with their quotes, and the digits. -/
structure Cut where
  /-- The affix before the number part. -/
  lead : List Char
  /-- The number part before the point. -/
  whole : List Char
  /-- The number part after the point. -/
  fraction : List Char
  /-- The affix after the number part. -/
  tail : List Char
  /-- The affixes of negative numbers, if they have their own. -/
  negative : Option (List Char × List Char)
deriving DecidableEq

/-- Cuts a pattern into its parts. -/
def cut? (s : List Char) : Option Cut := do
  let (lead, rest) ← splitAffix false s
  let whole := rest.takeWhile isWholeChar
  let (fraction, rest) := splitFraction (rest.dropWhile isWholeChar)
  let (tail, rest) ← splitAffix false rest
  let negative ← splitNegative rest
  some { lead, whole, fraction, tail, negative }

/-- Reads the affixes of negative numbers, if there are any: their texts, and the factors that they
ask for. -/
def readNegative? :
    Option (List Char × List Char) → Option (Option (List Char × List Char) × List Nat)
  | none => some (none, [])
  | some (lead, tail) => do
    let lead ← Affix.read? false lead
    let tail ← Affix.read? false tail
    some (some (lead.text, tail.text), lead.factors ++ tail.factors)

namespace Cut

/-- The digits before the point. -/
def digits (c : Cut) : List Char := c.whole.filter (· != ',')

/-- Whether the digits make a number part: there are some, mandatory ones stand next to the point,
and the last comma has digits behind it. -/
structure HasNumber (c : Cut) : Prop where
  ne_nil : c.digits ++ c.fraction ≠ []
  isWholeOrdered : isWholeOrdered c.digits
  isFractionOrdered : isFractionOrdered c.fraction
  groupSize_ne : groupSize c.whole ≠ some 0

/-- The pattern that the parts make, given the meaning of the affixes. -/
def withAffixes (c : Cut) (lead tail : Affix) (negative : Option (List Char × List Char))
    (factor : Nat) : Pattern where
  positive := (lead.text, tail.text)
  negative
  factor
  minWhole := c.digits.count '0'
  minFraction := c.fraction.count '0'
  maxFraction := c.fraction.length
  grouping := groupSize c.whole

/-- What the parts make: the digits are a number part, the affixes can be read, and all their signs
ask for one factor. -/
inductive Makes (c : Cut) : Pattern → Prop
  | intro {lead tail : Affix} {negative : Option (List Char × List Char)} {factors : List Nat}
      {factor : Nat} (number : c.HasNumber) (hlead : Affix.read? false c.lead = some lead)
      (htail : Affix.read? false c.tail = some tail)
      (hnegative : readNegative? c.negative = some (negative, factors))
      (hfactor : commonFactor (lead.factors ++ tail.factors ++ factors) = some factor) :
      Makes c (c.withAffixes lead tail negative factor)

lemma hasNumber_iff {c : Cut} :
    c.HasNumber ↔ ¬ ((c.digits ++ c.fraction).isEmpty || !Pattern.isWholeOrdered c.digits ||
      !Pattern.isFractionOrdered c.fraction || groupSize c.whole == some 0) = true := by
  simp only [Bool.or_eq_true, List.isEmpty_iff, Bool.not_eq_true', beq_iff_eq, not_or,
    Bool.not_eq_false]
  constructor
  · rintro ⟨hne, hwhole, hfraction, hsize⟩
    exact ⟨⟨⟨hne, hwhole⟩, hfraction⟩, hsize⟩
  · rintro ⟨⟨⟨hne, hwhole⟩, hfraction⟩, hsize⟩
    exact ⟨hne, hwhole, hfraction, hsize⟩

end Cut

/-- Where a pattern is cut. -/
lemma cut?_eq_some_iff {s : List Char} {c : Cut} :
    cut? s = some c ↔
      ∃ rest rest', splitAffix false s = some (c.lead, rest) ∧ rest.takeWhile isWholeChar = c.whole ∧
        (splitFraction (rest.dropWhile isWholeChar)).1 = c.fraction ∧
        splitAffix false (splitFraction (rest.dropWhile isWholeChar)).2 = some (c.tail, rest') ∧
        splitNegative rest' = some c.negative := by
  unfold cut?
  simp only [Option.bind_eq_bind, Option.bind_eq_some_iff, Prod.exists, Option.some.injEq]
  constructor
  · rintro ⟨lead, rest, hlead, tail, rest', htail, negative, hnegative, rfl⟩
    exact ⟨rest, rest', hlead, rfl, rfl, htail, hnegative⟩
  · rintro ⟨rest, rest', hlead, hwhole, hfraction, htail, hnegative⟩
    refine ⟨c.lead, rest, hlead, c.tail, rest', htail, c.negative, hnegative, ?_⟩
    rw [hwhole, hfraction]

/-- A pattern is read by cutting it and making a pattern of the parts. -/
theorem read?_eq_some_iff {s : List Char} {p : Pattern} :
    read? s = some p ↔ ∃ c, cut? s = some c ∧ c.Makes p := by
  constructor
  · intro h
    unfold read? at h
    simp only [Option.bind_eq_bind, Option.bind_eq_some_iff, Prod.exists] at h
    obtain ⟨lead, rest, hlead, tail, rest', htail, negative, hnegative, h⟩ := h
    split at h
    · simp at h
    next hnumber =>
    simp only [Option.bind_eq_some_iff] at h
    obtain ⟨leadAffix, hleadAffix, tailAffix, htailAffix, h⟩ := h
    refine ⟨⟨lead, rest.takeWhile isWholeChar, _, tail, negative⟩,
      cut?_eq_some_iff.2 ⟨rest, rest', hlead, rfl, rfl, htail, hnegative⟩, ?_⟩
    cases negative with
    | none =>
      simp only [Option.bind_some, Option.bind_eq_some_iff, Option.some.injEq] at h
      obtain ⟨factor, hfactor, rfl⟩ := h
      exact .intro (Cut.hasNumber_iff.2 hnumber) hleadAffix htailAffix rfl hfactor
    | some affixes =>
      simp only [Option.bind_some, Option.bind_eq_some_iff, Option.some.injEq] at h
      obtain ⟨negLead, hnegLead, negTail, hnegTail, factor, hfactor, rfl⟩ := h
      refine .intro (Cut.hasNumber_iff.2 hnumber) hleadAffix htailAffix ?_ hfactor
      simp [readNegative?, hnegLead, hnegTail]
  · rintro ⟨c, hcut, hmakes⟩
    obtain ⟨rest, rest', hlead, hwhole, hfraction, htail, hnegative⟩ := cut?_eq_some_iff.1 hcut
    cases hmakes with
    | @intro lead tail negative factors factor number hleadAffix htailAffix hread hfactor =>
      unfold read?
      simp only [Option.bind_eq_bind, hlead, htail, hnegative, Option.bind_some, hwhole, hfraction]
      have hnumber := Cut.hasNumber_iff.1 number
      rw [Cut.digits] at hnumber
      rw [if_neg hnumber, hleadAffix, htailAffix]
      simp only [Option.bind_some]
      cases hneg : c.negative with
      | none =>
        rw [hneg] at hread
        obtain ⟨rfl, rfl⟩ := Prod.mk.inj (Option.some.inj hread)
        simp only [Option.bind_some, hfactor]
        rfl
      | some affixes =>
        rw [hneg] at hread
        simp only [readNegative?, Option.bind_eq_bind, Option.bind_eq_some_iff,
          Option.some.injEq, Prod.mk.injEq] at hread
        obtain ⟨negLead, hnegLead, negTail, hnegTail, rfl, rfl⟩ := hread
        simp only [hnegLead, hnegTail, Option.bind_some, hfactor]
        rfl

/-! ## What holds of every pattern that is read -/

/-- A pattern asks for no more places than it allows. -/
lemma minFraction_le_of_read? {s : List Char} {p : Pattern} (h : read? s = some p) :
    p.minFraction ≤ p.maxFraction := by
  obtain ⟨c, -, ⟨⟩⟩ := read?_eq_some_iff.1 h
  exact List.count_le_length

/-- The signs of an affix ask for 100 and 1000 only. -/
lemma eq_of_mem_factors {quoted : Bool} {s : List Char} {a : Affix}
    (h : Affix.read? quoted s = some a) : ∀ f ∈ a.factors, f = 100 ∨ f = 1000 := by
  fun_induction Affix.read? quoted s generalizing a with
  | case1 =>
    obtain rfl := Option.some.inj h
    simp
  | case2 _ _ ih | case4 _ _ _ _ ih | case8 _ _ _ _ _ _ _ _ _ ih =>
    obtain ⟨b, hb, rfl⟩ := Option.map_eq_some_iff.1 h
    exact fun f hf => ih hb f hf
  | case3 _ _ _ ih => exact ih h
  | case5 _ _ _ _ _ ih =>
    obtain ⟨b, hb, rfl⟩ := Option.map_eq_some_iff.1 h
    exact List.forall_mem_cons.2 ⟨.inl rfl, ih hb⟩
  | case6 _ _ _ _ _ _ ih =>
    obtain ⟨b, hb, rfl⟩ := Option.map_eq_some_iff.1 h
    exact List.forall_mem_cons.2 ⟨.inr rfl, ih hb⟩
  | case7 => simp at h

lemma eq_of_mem_readNegative? {affixes : Option (List Char × List Char)}
    {negative : Option (List Char × List Char)} {factors : List Nat}
    (h : readNegative? affixes = some (negative, factors)) :
    ∀ f ∈ factors, f = 100 ∨ f = 1000 := by
  cases affixes with
  | none =>
    obtain ⟨-, rfl⟩ := Prod.mk.inj (Option.some.inj h)
    simp
  | some affixes =>
    simp only [readNegative?, Option.bind_eq_bind, Option.bind_eq_some_iff, Option.some.injEq,
      Prod.mk.injEq] at h
    obtain ⟨lead, hlead, tail, htail, -, rfl⟩ := h
    exact List.forall_mem_append.2 ⟨eq_of_mem_factors hlead, eq_of_mem_factors htail⟩

/-- The common factor is 1 if there is no sign, and that of all signs otherwise. -/
lemma commonFactor_eq_some_iff {factors : List Nat} {f : Nat} :
    commonFactor factors = some f ↔ (factors = [] ∧ f = 1) ∨ (factors ≠ [] ∧ ∀ g ∈ factors, g = f) := by
  cases factors with
  | nil => simp [commonFactor, eq_comm]
  | cons g factors =>
    simp only [commonFactor, List.all_eq_true, beq_iff_eq, Option.ite_none_right_eq_some,
      Option.some.injEq, reduceCtorEq, false_and, ne_eq, not_false_eq_true, true_and, false_or,
      List.forall_mem_cons]
    constructor
    · rintro ⟨hall, rfl⟩
      exact ⟨rfl, hall⟩
    · rintro ⟨rfl, hall⟩
      exact ⟨hall, rfl⟩

/-- A pattern scales by 1, 100 or 1000. -/
lemma factor_of_read? {s : List Char} {p : Pattern} (h : read? s = some p) :
    p.factor = 1 ∨ p.factor = 100 ∨ p.factor = 1000 := by
  obtain ⟨c, -, hmakes⟩ := read?_eq_some_iff.1 h
  cases hmakes with
  | @intro lead tail negative factors factor _ hlead htail hnegative hfactor =>
    rcases commonFactor_eq_some_iff.1 hfactor with ⟨-, rfl⟩ | ⟨hne, hall⟩
    · exact .inl rfl
    · obtain ⟨f, hf⟩ := List.exists_mem_of_ne_nil _ hne
      obtain rfl := hall f hf
      refine .inr ?_
      rcases List.mem_append.1 hf with hf | hf
      · rcases List.mem_append.1 hf with hf | hf
        · exact eq_of_mem_factors hlead f hf
        · exact eq_of_mem_factors htail f hf
      · exact eq_of_mem_readNegative? hnegative f hf

end PageScript.Decimal.Pattern
