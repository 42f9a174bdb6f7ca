import PageScript.Proofs.Decimal.Grammar
import Mathlib.Data.Set.List
/-!
# The form of a pattern as a regular expression

The form of a pattern is regular: a regular expression with a group for each part says what the
parts of a text are.  A text without digits may match in several ways, as nothing tells its two
affixes apart, so which parts the groups hold depends on how an engine picks its match; but then
none of the matches makes a pattern.  A text with a digit matches in one way, and the groups hold the
parts that the reader cuts out.
-/

namespace PageScript.Decimal

/-- A regular expression, with numbered groups. -/
inductive Regex where
  /-- A character of a class. -/
  | char (p : Char → Bool)
  /-- One expression, and behind it another. -/
  | seq (e f : Regex)
  /-- One expression or another. -/
  | or (e f : Regex)
  /-- An expression, any number of times. -/
  | many (e : Regex)
  /-- An expression, or nothing. -/
  | optional (e : Regex)
  /-- An expression whose text is kept under a number. -/
  | group (index : ℕ) (e : Regex)

namespace Regex

/-- What the groups of a match hold, in order. -/
abbrev Groups := List (ℕ × List Char)

/-- Whether an expression matches the whole of a text, and what its groups hold then. -/
def Matches : Regex → List Char → Groups → Prop
  | char p, s, gs => gs = [] ∧ ∃ c, p c ∧ s = [c]
  | seq e f, s, gs =>
    ∃ s₁ s₂ gs₁ gs₂, e.Matches s₁ gs₁ ∧ f.Matches s₂ gs₂ ∧ s = s₁ ++ s₂ ∧ gs = gs₁ ++ gs₂
  | or e f, s, gs => e.Matches s gs ∨ f.Matches s gs
  | many e, s, gs =>
    ∃ rounds : List (List Char × Groups), (∀ r ∈ rounds, e.Matches r.1 r.2) ∧
      s = rounds.flatMap Prod.fst ∧ gs = rounds.flatMap Prod.snd
  | optional e, s, gs => (s = [] ∧ gs = []) ∨ e.Matches s gs
  | group index e, s, gs => ∃ gs', e.Matches s gs' ∧ gs = (index, s) :: gs'

/-- One of some characters. -/
def oneOf (chars : List Char) : Regex := char (chars.contains ·)

/-- A character besides some. -/
def noneOf (chars : List Char) : Regex := char fun c => !chars.contains c

/-- An expression, at least once. -/
def atLeastOne (e : Regex) : Regex := seq e (many e)

/-- A piece of an affix: `'[^']*'|[^#0,.;']`. -/
def piece : Regex :=
  or (seq (oneOf ['\'']) (seq (many (noneOf ['\''])) (oneOf ['\''])))
    (noneOf ['#', '0', ',', '.', ';', '\''])

/-- The row for negative numbers: `;((?:piece)*)[#0,.]+((?:piece)*)`. -/
def negativeRow : Regex :=
  seq (oneOf [';']) (seq (group 5 (many piece)) (seq (atLeastOne (oneOf ['#', '0', ',', '.']))
    (group 6 (many piece))))

/-- A pattern: `^((?:piece)*)([#0,]*)(?:\.([#0]*))?((?:piece)*)(?:negativeRow)?$`. -/
def pattern : Regex :=
  seq (group 1 (many piece)) (seq (group 2 (many (oneOf ['#', '0', ','])))
    (seq (optional (seq (oneOf ['.']) (group 3 (many (oneOf ['#', '0'])))))
      (seq (group 4 (many piece)) (optional negativeRow))))

/-! ## What the expression matches -/

variable {s : List Char} {gs : Groups}

/-- A repetition without groups matches what its rounds make. -/
lemma matches_many {e : Regex} {P : List Char → Prop}
    (he : ∀ s gs, e.Matches s gs ↔ gs = [] ∧ P s) :
    (many e).Matches s gs ↔
      gs = [] ∧ ∃ rounds : List (List Char), (∀ r ∈ rounds, P r) ∧ s = rounds.flatten := by
  constructor
  · rintro ⟨rounds, hrounds, rfl, rfl⟩
    have hround (r) (hr : r ∈ rounds) := (he r.1 r.2).1 (hrounds r hr)
    refine ⟨List.flatMap_eq_nil_iff.2 fun r hr => (hround r hr).1, rounds.map Prod.fst, ?_,
      List.flatMap_def⟩
    rintro s hs
    obtain ⟨r, hr, rfl⟩ := List.mem_map.1 hs
    exact (hround r hr).2
  · rintro ⟨rfl, rounds, hrounds, rfl⟩
    refine ⟨rounds.map fun r => (r, []), ?_, ?_, ?_⟩
    · rintro r hr
      obtain ⟨s, hs, rfl⟩ := List.mem_map.1 hr
      exact (he s []).2 ⟨rfl, hrounds s hs⟩
    · simp [List.flatMap_map]
    · simp

lemma matches_many_char {p : Char → Bool} :
    (many (char p)).Matches s gs ↔ gs = [] ∧ ∀ c ∈ s, p c := by
  rw [matches_many (P := fun s => ∃ c, p c ∧ s = [c]) fun _ _ => Iff.rfl]
  refine and_congr_right fun _ => ?_
  constructor
  · rintro ⟨rounds, hrounds, rfl⟩ c hc
    obtain ⟨r, hr, hc⟩ := List.mem_flatten.1 hc
    obtain ⟨d, hd, rfl⟩ := hrounds r hr
    rwa [List.mem_singleton.1 hc]
  · intro h
    refine ⟨s.map fun c => [c], ?_, (List.flatMap_singleton' s).symm⟩
    rintro r hr
    obtain ⟨c, hc, rfl⟩ := List.mem_map.1 hr
    exact ⟨c, h c hc, rfl⟩

lemma matches_oneOf_singleton {c : Char} : (oneOf [c]).Matches s gs ↔ gs = [] ∧ s = [c] := by
  simp [oneOf, Matches]

lemma isPatternChar_iff {c : Char} :
    isPatternChar c = false ↔ !(['#', '0', ',', '.', ';', '\''] : List Char).contains c := by
  simp [isPatternChar, and_assoc]

lemma matches_piece : piece.Matches s gs ↔ gs = [] ∧ ∃ p : Piece, s = p.text := by
  constructor
  · rintro (⟨_, _, _, _, hopen, ⟨run, _, _, _, hrun, hclose, rfl, rfl⟩, rfl, rfl⟩ | ⟨rfl, c, hc, rfl⟩)
    · obtain ⟨rfl, rfl⟩ := matches_oneOf_singleton.1 hopen
      obtain ⟨rfl, rfl⟩ := matches_oneOf_singleton.1 hclose
      obtain ⟨rfl, hclass⟩ := matches_many_char.1 hrun
      have hquote : '\'' ∉ run := fun hmem => absurd (hclass _ hmem) (by decide)
      exact ⟨rfl, .quoted run hquote, rfl⟩
    · exact ⟨rfl, .plain c (isPatternChar_iff.2 hc), rfl⟩
  · rintro ⟨rfl, p, rfl⟩
    cases p with
    | plain c hc => exact .inr ⟨rfl, c, isPatternChar_iff.1 hc, rfl⟩
    | quoted run hrun =>
      have hclass : ∀ c ∈ run, !(['\''] : List Char).contains c := by
        intro c hc
        have hne : c ≠ '\'' := ne_of_mem_of_not_mem hc hrun
        simpa using hne
      have hmany : (many (noneOf ['\''])).Matches run [] := matches_many_char.2 ⟨rfl, hclass⟩
      exact .inl ⟨_, _, _, _, matches_oneOf_singleton.2 ⟨rfl, rfl⟩,
        ⟨_, _, _, _, hmany, matches_oneOf_singleton.2 ⟨rfl, rfl⟩, rfl, rfl⟩, rfl, rfl⟩

/-- A repetition of pieces matches the texts of affixes. -/
lemma matches_many_piece : (many piece).Matches s gs ↔ gs = [] ∧ ∃ ps, affixText ps = s := by
  rw [matches_many fun _ _ => matches_piece]
  refine and_congr_right fun _ => ?_
  constructor
  · rintro ⟨rounds, hrounds, rfl⟩
    have hrange : rounds ∈ Set.range (List.map Piece.text) := by
      rw [Set.range_list_map]
      intro r hr
      obtain ⟨p, rfl⟩ := hrounds r hr
      exact ⟨p, rfl⟩
    obtain ⟨ps, rfl⟩ := hrange
    exact ⟨ps, List.flatMap_def⟩
  · rintro ⟨ps, rfl⟩
    refine ⟨ps.map Piece.text, ?_, List.flatMap_def⟩
    intro r hr
    obtain ⟨p, -, rfl⟩ := List.mem_map.1 hr
    exact ⟨p, rfl⟩

lemma matches_group_affix {index : ℕ} :
    (group index (many piece)).Matches s gs ↔ ∃ ps, affixText ps = s ∧ [(index, s)] = gs := by
  constructor
  · rintro ⟨_, hmany, rfl⟩
    obtain ⟨rfl, ps, htext⟩ := matches_many_piece.1 hmany
    exact ⟨ps, htext, rfl⟩
  · rintro ⟨ps, htext, rfl⟩
    exact ⟨[], matches_many_piece.2 ⟨rfl, ps, htext⟩, rfl⟩

lemma matches_group_class {index : ℕ} {p : Char → Bool} :
    (group index (many (char p))).Matches s gs ↔ (∀ c ∈ s, p c) ∧ [(index, s)] = gs := by
  constructor
  · rintro ⟨_, hmany, rfl⟩
    obtain ⟨rfl, hclass⟩ := matches_many_char.1 hmany
    exact ⟨hclass, rfl⟩
  · rintro ⟨hclass, rfl⟩
    exact ⟨[], matches_many_char.2 ⟨rfl, hclass⟩, rfl⟩

lemma matches_atLeastOne_char {p : Char → Bool} :
    (atLeastOne (char p)).Matches s gs ↔ gs = [] ∧ s ≠ [] ∧ ∀ c ∈ s, p c := by
  constructor
  · rintro ⟨_, _, _, _, ⟨rfl, c, hc, rfl⟩, hmany, rfl, rfl⟩
    obtain ⟨rfl, hclass⟩ := matches_many_char.1 hmany
    exact ⟨rfl, by simp, List.forall_mem_cons.2 ⟨hc, hclass⟩⟩
  · rintro ⟨rfl, hne, hclass⟩
    obtain ⟨c, s, rfl⟩ := List.exists_cons_of_ne_nil hne
    obtain ⟨hc, hclass⟩ := List.forall_mem_cons.1 hclass
    exact ⟨_, _, _, _, ⟨rfl, c, hc, rfl⟩, matches_many_char.2 ⟨rfl, hclass⟩, rfl, rfl⟩

/-- What the groups hold of a row for negative numbers. -/
def ofNegative (n : Pattern.NegativeParts) : Groups := [(5, affixText n.lead), (6, affixText n.tail)]

/-- What the groups hold of a pattern. -/
def ofParts (d : Pattern.Parts) : Groups :=
  [(1, affixText d.lead)] ++ ([(2, d.whole)] ++ (d.fraction.elim [] (fun f => [(3, f)]) ++
    ([(4, affixText d.tail)] ++ d.negative.elim [] ofNegative)))

lemma contains_number {c : Char} :
    (['#', '0', ',', '.'] : List Char).contains c = Pattern.isNumberChar c := by
  simp [Pattern.isNumberChar, Pattern.isWholeChar, Bool.or_assoc, Bool.beq_eq_decide_eq]

lemma matches_negativeRow :
    negativeRow.Matches s gs ↔
      ∃ n : Pattern.NegativeParts, ';' :: n.text = s ∧ ofNegative n = gs := by
  constructor
  · rintro ⟨_, _, _, _, hsemicolon, ⟨_, _, _, _, hlead, ⟨number, _, _, _, hnumber, htail, rfl, rfl⟩,
      rfl, rfl⟩, rfl, rfl⟩
    obtain ⟨rfl, rfl⟩ := matches_oneOf_singleton.1 hsemicolon
    obtain ⟨lead, rfl, rfl⟩ := matches_group_affix.1 hlead
    obtain ⟨rfl, hne, hclass⟩ := matches_atLeastOne_char.1 hnumber
    obtain ⟨tail, rfl, rfl⟩ := matches_group_affix.1 htail
    exact ⟨⟨lead, number, tail, hne, fun c hc => contains_number ▸ hclass c hc⟩, rfl, rfl⟩
  · rintro ⟨n, rfl, rfl⟩
    have hnumber : (atLeastOne (oneOf ['#', '0', ',', '.'])).Matches n.number [] :=
      matches_atLeastOne_char.2
        ⟨rfl, n.number_ne_nil, fun c hc => contains_number ▸ n.isNumberChar_of_mem c hc⟩
    exact ⟨_, _, _, _, matches_oneOf_singleton.2 ⟨rfl, rfl⟩,
      ⟨_, _, _, _, matches_group_affix.2 ⟨n.lead, rfl, rfl⟩,
        ⟨_, _, _, _, hnumber, matches_group_affix.2 ⟨n.tail, rfl, rfl⟩, rfl, rfl⟩, rfl, rfl⟩,
      rfl, rfl⟩

lemma contains_whole {c : Char} :
    (['#', '0', ','] : List Char).contains c = Pattern.isWholeChar c := by
  simp [Pattern.isWholeChar, Bool.or_assoc, Bool.beq_eq_decide_eq]

lemma contains_fraction {c : Char} :
    (['#', '0'] : List Char).contains c = Pattern.isFractionChar c := by
  simp [Pattern.isFractionChar, Bool.beq_eq_decide_eq]

lemma matches_fraction :
    (optional (seq (oneOf ['.']) (group 3 (many (oneOf ['#', '0']))))).Matches s gs ↔
      ∃ f : Option (List Char), (∀ ds ∈ f, ∀ c ∈ ds, Pattern.isFractionChar c) ∧
        f.elim [] ('.' :: ·) = s ∧ f.elim [] (fun ds => [(3, ds)]) = gs := by
  constructor
  · rintro (⟨rfl, rfl⟩ | ⟨_, ds, _, _, hpoint, hdigits, rfl, rfl⟩)
    · exact ⟨none, by simp, rfl, rfl⟩
    · obtain ⟨rfl, rfl⟩ := matches_oneOf_singleton.1 hpoint
      obtain ⟨hclass, rfl⟩ := matches_group_class.1 hdigits
      refine ⟨some ds, ?_, rfl, rfl⟩
      rintro _ ⟨⟩ c hc
      exact contains_fraction ▸ hclass c hc
  · rintro ⟨f, hclass, rfl, rfl⟩
    cases f with
    | none => exact .inl ⟨rfl, rfl⟩
    | some ds =>
      have hdigits : (group 3 (many (oneOf ['#', '0']))).Matches ds [(3, ds)] :=
        matches_group_class.2 ⟨fun c hc => contains_fraction.trans (hclass ds rfl c hc), rfl⟩
      exact .inr ⟨_, _, _, _, matches_oneOf_singleton.2 ⟨rfl, rfl⟩, hdigits, rfl, rfl⟩

lemma matches_optional_negativeRow :
    (optional negativeRow).Matches s gs ↔
      ∃ n : Option Pattern.NegativeParts, n.elim [] (';' :: ·.text) = s ∧
        n.elim [] ofNegative = gs := by
  constructor
  · rintro (⟨rfl, rfl⟩ | hrow)
    · exact ⟨none, rfl, rfl⟩
    · obtain ⟨n, htext, hgroups⟩ := matches_negativeRow.1 hrow
      exact ⟨some n, htext, hgroups⟩
  · rintro ⟨n, rfl, rfl⟩
    cases n with
    | none => exact .inl ⟨rfl, rfl⟩
    | some n => exact .inr (matches_negativeRow.2 ⟨n, rfl, rfl⟩)

/-- The expression matches the texts that can be taken apart, and the groups hold the parts. -/
theorem matches_pattern :
    pattern.Matches s gs ↔ ∃ d : Pattern.Parts, d.text = s ∧ ofParts d = gs := by
  constructor
  · rintro ⟨_, _, _, _, hlead, ⟨whole, _, _, _, hwhole, ⟨_, _, _, _, hfraction,
      ⟨_, _, _, _, htail, hnegative, rfl, rfl⟩, rfl, rfl⟩, rfl, rfl⟩, rfl, rfl⟩
    obtain ⟨lead, rfl, rfl⟩ := matches_group_affix.1 hlead
    obtain ⟨hclass, rfl⟩ := matches_group_class.1 hwhole
    obtain ⟨fraction, hfractionClass, rfl, rfl⟩ := matches_fraction.1 hfraction
    obtain ⟨tail, rfl, rfl⟩ := matches_group_affix.1 htail
    obtain ⟨negative, rfl, rfl⟩ := matches_optional_negativeRow.1 hnegative
    refine ⟨⟨lead, whole, fraction, tail, negative, fun c hc => contains_whole ▸ hclass c hc,
      hfractionClass⟩, ?_, rfl⟩
    simp [Pattern.Parts.text, Pattern.Parts.number, Pattern.Parts.fractionText,
      Pattern.Parts.negativeText]
  · rintro ⟨d, rfl, rfl⟩
    have hwhole : (group 2 (many (oneOf ['#', '0', ',']))).Matches d.whole [(2, d.whole)] :=
      matches_group_class.2 ⟨fun c hc => contains_whole.trans (d.isWholeChar_of_mem c hc), rfl⟩
    have htext : d.text = affixText d.lead ++ (d.whole ++ (d.fractionText ++
        (affixText d.tail ++ d.negativeText))) := by
      rw [Pattern.Parts.text, Pattern.Parts.number, List.append_assoc]
    exact ⟨_, _, _, _, matches_group_affix.2 ⟨d.lead, rfl, rfl⟩, ⟨_, _, _, _, hwhole,
      ⟨_, _, _, _, matches_fraction.2 ⟨d.fraction, d.isFractionChar_of_mem, rfl, rfl⟩,
        ⟨_, _, _, _, matches_group_affix.2 ⟨d.tail, rfl, rfl⟩,
          matches_optional_negativeRow.2 ⟨d.negative, rfl, rfl⟩, rfl, rfl⟩, rfl, rfl⟩,
      rfl, rfl⟩, htext, rfl⟩

end Regex

namespace Pattern

/-- The parts that the groups of a match hold. -/
def Cut.ofGroups (gs : Regex.Groups) : Cut where
  lead := (gs.lookup 1).getD []
  whole := (gs.lookup 2).getD []
  fraction := (gs.lookup 3).getD []
  tail := (gs.lookup 4).getD []
  negative := do
    let lead ← gs.lookup 5
    let tail ← gs.lookup 6
    some (lead, tail)

lemma Cut.ofGroups_ofParts (d : Parts) : ofGroups (Regex.ofParts d) = d.cut := by
  rw [Regex.ofParts, Parts.cut]
  cases d.fraction <;> cases d.negative <;> rfl

/-- The groups of any match make what the reader gives. -/
lemma makes_ofGroups_iff {s : List Char} {gs : Regex.Groups} {p : Pattern}
    (h : Regex.pattern.Matches s gs) : (Cut.ofGroups gs).Makes p ↔ read? s = some p := by
  obtain ⟨d, rfl, rfl⟩ := Regex.matches_pattern.1 h
  rw [Cut.ofGroups_ofParts, Parts.makes_iff_denotes, read?_eq_some_iff_denotes]
  constructor
  · exact fun hdenotes => ⟨d, rfl, hdenotes⟩
  -- The parts that the reader cuts out have a digit, so they are the only ones.
  · rintro ⟨d', htext, hdenotes⟩
    rwa [← Parts.eq_of_text_eq hdenotes.number_ne_nil htext]

/-- A pattern is read from a text if the regular expression matches it and the groups make the
pattern, whichever match an engine picks. -/
theorem read?_eq_some_iff_matches {s : List Char} {p : Pattern} :
    read? s = some p ↔ (∃ gs, Regex.pattern.Matches s gs) ∧
      ∀ gs, Regex.pattern.Matches s gs → (Cut.ofGroups gs).Makes p := by
  constructor
  · intro hread
    obtain ⟨d, htext, -⟩ := read?_eq_some_iff_denotes.1 hread
    exact ⟨⟨_, Regex.matches_pattern.2 ⟨d, htext, rfl⟩⟩,
      fun gs hmatches => (makes_ofGroups_iff hmatches).2 hread⟩
  · rintro ⟨⟨gs, hmatches⟩, hmakes⟩
    exact (makes_ofGroups_iff hmatches).1 (hmakes gs hmatches)

end Pattern

end PageScript.Decimal
