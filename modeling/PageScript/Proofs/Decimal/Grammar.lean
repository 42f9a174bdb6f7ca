import PageScript.Proofs.Decimal.Affix
import PageScript.Proofs.Decimal.Cut
import PageScript.Proofs.Text.Span
import PageScript.Host.Buffer
import PageScript.Builtin
/-!
# The language of decimal patterns

A pattern is an affix, a number part and an affix, and after `;` it may have a second such row for
negative numbers, whose number part has no meaning.  A text with a number part has one decomposition
of this form, which is where the reader cuts it, and the reader takes the text if the decomposition
satisfies what is asked of it and refuses it otherwise.
-/

namespace PageScript.Decimal.Pattern

/-- The row for negative numbers, taken apart. -/
@[ext]
structure NegativeParts where
  /-- The affix before the number part. -/
  lead : List Piece
  /-- The number part, which has no meaning. -/
  number : List Char
  /-- The affix after the number part. -/
  tail : List Piece
  number_ne_nil : number ≠ []
  isNumberChar_of_mem : ∀ c ∈ number, isNumberChar c

/-- A pattern, taken apart. -/
@[ext]
structure Parts where
  /-- The affix before the number part. -/
  lead : List Piece
  /-- The number part before the point. -/
  whole : List Char
  /-- The number part after the point, if there is a point. -/
  fraction : Option (List Char)
  /-- The affix after the number part. -/
  tail : List Piece
  /-- The row for negative numbers, if there is one. -/
  negative : Option NegativeParts
  isWholeChar_of_mem : ∀ c ∈ whole, isWholeChar c
  isFractionChar_of_mem : ∀ f ∈ fraction, ∀ c ∈ f, isFractionChar c

/-- The text of the row for negative numbers, behind its `;`. -/
def NegativeParts.text (n : NegativeParts) : List Char :=
  affixText n.lead ++ (n.number ++ affixText n.tail)

namespace Parts

/-- The text of the point and what follows it in the number part. -/
def fractionText (d : Parts) : List Char := d.fraction.elim [] ('.' :: ·)

/-- The text of the number part. -/
def number (d : Parts) : List Char := d.whole ++ d.fractionText

/-- The text of the row for negative numbers. -/
def negativeText (d : Parts) : List Char := d.negative.elim [] (';' :: ·.text)

/-- The text of a pattern. -/
def text (d : Parts) : List Char :=
  affixText d.lead ++ (d.number ++ (affixText d.tail ++ d.negativeText))

/-- The pieces of the affixes for negative numbers. -/
def negativePieces (d : Parts) : List Piece := d.negative.elim [] fun n => n.lead ++ n.tail

/-- The pieces of all affixes. -/
def pieces (d : Parts) : List Piece := d.lead ++ d.tail ++ d.negativePieces

/-- The parts as they are cut out of the text. -/
def cut (d : Parts) : Cut where
  lead := affixText d.lead
  whole := d.whole
  fraction := d.fraction.getD []
  tail := affixText d.tail
  negative := d.negative.map fun n => (affixText n.lead, affixText n.tail)

end Parts

/-- The factor that signs outside quotes ask for, which must be of one kind. -/
inductive Scales (ps : List Piece) : ℕ → Prop
  | one (hpercent : .percent ∉ ps) (hmille : .perMille ∉ ps) : Scales ps 1
  | percent (hpercent : .percent ∈ ps) (hmille : .perMille ∉ ps) : Scales ps 100
  | perMille (hpercent : .percent ∉ ps) (hmille : .perMille ∈ ps) : Scales ps 1000

/-- The size of digit groups: how many digits follow the last comma, at least one. -/
inductive Groups (whole : List Char) : Option ℕ → Prop
  | none (hcomma : ',' ∉ whole) : Groups whole none
  | some {before after : List Char} (hwhole : whole = before ++ ',' :: after)
      (hafter : ',' ∉ after) (hne : after ≠ []) : Groups whole (some after.length)

/-- What a decomposition means: the conditions under which it is a pattern, and which pattern. -/
structure Parts.Denotes (d : Parts) (p : Pattern) : Prop where
  /-- Before the point optional digits stand left of mandatory ones, commas aside. -/
  whole : ∃ optional, d.whole.filter (· != ',') =
    List.replicate optional '#' ++ List.replicate p.minWhole '0'
  /-- Behind the point mandatory digits stand left of optional ones. -/
  fraction : ∃ optional, p.maxFraction = p.minFraction + optional ∧ d.fraction.getD [] =
    List.replicate p.minFraction '0' ++ List.replicate optional '#'
  /-- There is a digit. -/
  ne_nil : d.whole.filter (· != ',') ≠ [] ∨ d.fraction.getD [] ≠ []
  groups : Groups d.whole p.grouping
  /-- There is no currency sign outside quotes. -/
  currency : .currency ∉ d.pieces
  scales : Scales d.pieces p.factor
  positive : p.positive = (unquoted false d.lead, unquoted false d.tail)
  negative : p.negative = d.negative.map fun n => (unquoted false n.lead, unquoted false n.tail)

/-! ## The parts are what the text is cut into -/

lemma endsAffix_append {number : List Char} (hnumber : ∀ c ∈ number, isNumberChar c)
    (hne : number ≠ []) (rest : List Char) : EndsAffix (number ++ rest) := by
  obtain ⟨c, number, rfl⟩ := List.exists_cons_of_ne_nil hne
  intro d hd
  obtain rfl : c = d := by simpa using hd
  have hc := hnumber c List.mem_cons_self
  simp only [isNumberChar, isWholeChar, Bool.or_eq_true, beq_iff_eq] at hc
  rcases hc with ((rfl | rfl) | rfl) | rfl <;> decide

lemma endsAffix_nil : EndsAffix [] := by simp [EndsAffix]

lemma isNumberChar_of_isWholeChar {c : Char} (h : isWholeChar c) : isNumberChar c := by
  simp [isNumberChar, h]

lemma isWholeChar_of_isFractionChar {c : Char} (h : isFractionChar c) : isWholeChar c := by
  simp only [isFractionChar, Bool.or_eq_true, beq_iff_eq] at h
  rcases h with rfl | rfl <;> decide

lemma isNumberChar_eq_false {c : Char} (h : isPatternChar c = false) : isNumberChar c = false := by
  simp only [isPatternChar, isNumberChar, isWholeChar, Bool.or_eq_false_iff] at h ⊢
  exact ⟨h.1.1.1, h.1.1.2⟩

/-- The number part ends where an affix begins. -/
lemma any_head?_affixText_append (ps : List Piece) {rest : List Char}
    (hrest : rest.head?.any isNumberChar = false) :
    (affixText ps ++ rest).head?.any isNumberChar = false := by
  cases ps with
  | nil => exact hrest
  | cons p ps =>
    cases p with
    | plain c hc => simpa using isNumberChar_eq_false hc
    | quoted run hrun =>
      rw [affixText_quoted]
      rfl

/-- A class of characters ends where a larger one does. -/
lemma any_head?_of_imp {p q : Char → Bool} (hqp : ∀ c, q c → p c) {rest : List Char}
    (hrest : rest.head?.any p = false) : rest.head?.any q = false := by
  cases rest with
  | nil => rfl
  | cons c rest =>
    have hc : p c = false := by simpa using hrest
    simpa using mt (hqp c) (by simp [hc])

namespace Parts

variable (d : Parts)

lemma any_head?_negativeText : d.negativeText.head?.any isNumberChar = false := by
  unfold negativeText
  cases d.negative <;> rfl

lemma endsAffix_negativeText : EndsAffix d.negativeText := by
  unfold negativeText
  cases d.negative with
  | none => exact endsAffix_nil
  | some n => simp [EndsAffix, isPatternChar]

lemma any_head?_tail :
    (affixText d.tail ++ d.negativeText).head?.any isNumberChar = false :=
  any_head?_affixText_append d.tail d.any_head?_negativeText

/-- The part of the number before the point ends there. -/
lemma any_head?_fractionText :
    (d.fractionText ++ (affixText d.tail ++ d.negativeText)).head?.any isWholeChar = false := by
  unfold fractionText
  cases d.fraction with
  | none => exact any_head?_of_imp (fun _ => isNumberChar_of_isWholeChar) d.any_head?_tail
  | some fraction => rfl

lemma isNumberChar_of_mem_number : ∀ c ∈ d.number, isNumberChar c := by
  refine List.forall_mem_append.2 ⟨fun c hc =>
    isNumberChar_of_isWholeChar (d.isWholeChar_of_mem c hc), ?_⟩
  unfold fractionText
  cases hfraction : d.fraction with
  | none => simp
  | some fraction =>
    refine List.forall_mem_cons.2 ⟨rfl, fun c hc => ?_⟩
    exact isNumberChar_of_isWholeChar
      (isWholeChar_of_isFractionChar (d.isFractionChar_of_mem fraction hfraction c hc))

/-- The row for negative numbers is cut into its affixes. -/
lemma splitNegative_negativeText : splitNegative d.negativeText = some d.cut.negative := by
  unfold negativeText cut
  cases d.negative with
  | none => rfl
  | some n =>
    have hnumber := endsAffix_append n.isNumberChar_of_mem n.number_ne_nil (affixText n.tail)
    have hend : (affixText n.tail).head?.any isNumberChar = false := by
      rw [← List.append_nil (affixText n.tail)]
      exact any_head?_affixText_append n.tail rfl
    obtain ⟨htake, hdrop⟩ := span_append n.isNumberChar_of_mem hend
    have htail := splitAffix_affixText n.tail endsAffix_nil
    rw [List.append_nil] at htail
    rw [Option.elim_some, NegativeParts.text, splitNegative, splitAffix_affixText n.lead hnumber]
    simp only [Option.bind_eq_bind, Option.bind_some, htake, hdrop, htail]
    simp [n.number_ne_nil]

/-- The fraction is cut off behind the point. -/
lemma splitFraction_fractionText :
    splitFraction (d.fractionText ++ (affixText d.tail ++ d.negativeText)) =
      (d.cut.fraction, affixText d.tail ++ d.negativeText) := by
  have hend := d.any_head?_tail
  unfold fractionText cut
  cases hfraction : d.fraction with
  | none =>
    simp only [Option.elim_none, List.nil_append, Option.getD_none]
    generalize affixText d.tail ++ d.negativeText = rest at hend
    unfold splitFraction
    split
    · cases hend
    · rfl
  | some fraction =>
    have hend' := any_head?_of_imp (fun c hc =>
      isNumberChar_of_isWholeChar (isWholeChar_of_isFractionChar hc)) hend
    obtain ⟨htake, hdrop⟩ := span_append (d.isFractionChar_of_mem fraction hfraction) hend'
    simp [splitFraction, htake, hdrop]

/-- A text with a number part is cut into its parts. -/
theorem cut?_text (hnumber : d.number ≠ []) : cut? d.text = some d.cut := by
  have hlead := splitAffix_affixText d.lead
    (endsAffix_append d.isNumberChar_of_mem_number hnumber (affixText d.tail ++ d.negativeText))
  have htail := splitAffix_affixText d.tail d.endsAffix_negativeText
  obtain ⟨htake, hdrop⟩ := span_append d.isWholeChar_of_mem d.any_head?_fractionText
  rw [number, List.append_assoc] at hlead
  refine cut?_eq_some_iff.2 ⟨_, d.negativeText, ?_, htake, ?_, ?_, d.splitNegative_negativeText⟩
  · rw [text, number, List.append_assoc]
    exact hlead
  · rw [hdrop, d.splitFraction_fractionText]
  · rw [hdrop, d.splitFraction_fractionText]
    exact htail

end Parts

/-- What is split off behind the number part before the point is a fraction, if there is a point. -/
lemma exists_of_splitFraction {s fraction rest : List Char}
    (h : splitFraction s = (fraction, rest)) :
    ∃ f : Option (List Char), f.elim [] ('.' :: ·) ++ rest = s ∧ f.getD [] = fraction ∧
      ∀ ds ∈ f, ∀ c ∈ ds, isFractionChar c := by
  unfold splitFraction at h
  split at h
  · next tail =>
    obtain ⟨rfl, rfl⟩ := Prod.mk.inj h
    refine ⟨some (tail.takeWhile isFractionChar), ?_, rfl, ?_⟩
    · rw [Option.elim_some, List.cons_append, List.takeWhile_append_dropWhile]
    · rintro ds ⟨⟩
      exact fun c => List.mem_takeWhile_imp
  · obtain ⟨rfl, rfl⟩ := Prod.mk.inj h
    exact ⟨none, rfl, rfl, by simp⟩

/-- What is left of a pattern is a row for negative numbers, or nothing. -/
lemma exists_of_splitNegative {s : List Char} {negative : Option (List Char × List Char)}
    (h : splitNegative s = some negative) :
    ∃ n : Option NegativeParts, n.elim [] (';' :: ·.text) = s ∧
      n.map (fun n => (affixText n.lead, affixText n.tail)) = negative := by
  unfold splitNegative at h
  split at h
  · obtain rfl := Option.some.inj h
    exact ⟨none, rfl, rfl⟩
  · simp only [Option.bind_eq_bind, Option.bind_eq_some_iff, Prod.exists] at h
    obtain ⟨lead, rest, hlead, tail, left, htail, h⟩ := h
    obtain ⟨⟨leadPieces, rfl⟩, rfl, -⟩ := splitAffix_eq_some hlead
    obtain ⟨⟨tailPieces, rfl⟩, hdrop, -⟩ := splitAffix_eq_some htail
    simp only [Option.ite_none_left_eq_some, Bool.or_eq_true, List.isEmpty_iff, Bool.not_eq_true',
      not_or, List.isEmpty_eq_false_iff, not_not, Option.some.injEq] at h
    obtain ⟨⟨hnumber, rfl⟩, rfl⟩ := h
    refine ⟨some ⟨leadPieces, _, tailPieces, hnumber, fun c => List.mem_takeWhile_imp⟩, ?_, rfl⟩
    rw [List.append_nil] at hdrop
    rw [Option.elim_some, NegativeParts.text, hdrop, List.takeWhile_append_dropWhile]
  · cases h

/-- A text that is cut is the text of some parts. -/
theorem exists_parts_of_cut? {s : List Char} {c : Cut} (h : cut? s = some c) :
    ∃ d : Parts, d.text = s ∧ d.cut = c := by
  obtain ⟨rest, rest', hlead, hwhole, hfraction, htail, hnegative⟩ := cut?_eq_some_iff.1 h
  obtain ⟨⟨lead, hleadText⟩, rfl, -⟩ := splitAffix_eq_some hlead
  obtain ⟨⟨tail, htailText⟩, htailRest, -⟩ := splitAffix_eq_some htail
  obtain ⟨fraction, hfractionRest, hfractionText, hfractionChar⟩ :=
    exists_of_splitFraction (Prod.ext hfraction rfl)
  obtain ⟨negative, hnegativeRest, hnegativeText⟩ := exists_of_splitNegative hnegative
  have hwholeChar : ∀ c ∈ rest.takeWhile isWholeChar, isWholeChar c :=
    fun c => List.mem_takeWhile_imp
  refine ⟨⟨lead, _, fraction, tail, negative, hwholeChar, hfractionChar⟩, ?_, ?_⟩
  · rw [← hleadText, Parts.text, Parts.number, Parts.fractionText, Parts.negativeText]
    dsimp only
    rw [htailText, hnegativeRest, htailRest, List.append_assoc, hfractionRest,
      List.takeWhile_append_dropWhile]
  · rw [Parts.cut]
    dsimp only
    rw [hleadText, htailText, hnegativeText, hfractionText, hwhole]

/-! ## There is one decomposition -/

/-- Rows for negative numbers with one text and the same affixes have the same number part. -/
lemma NegativeParts.eq_of_text_eq {n n' : NegativeParts} (hlead : n.lead = n'.lead)
    (htail : n.tail = n'.tail) (h : n.text = n'.text) : n = n' := by
  rw [text, text, hlead, htail] at h
  exact NegativeParts.ext hlead (List.append_cancel_right (List.append_cancel_left h)) htail

namespace Parts

variable {d d' : Parts}

/-- The text behind the number part before the point begins with a point just if there is one. -/
lemma head?_fractionText :
    (d.fractionText ++ (affixText d.tail ++ d.negativeText)).head? = some '.' ↔
      d.fraction.isSome := by
  have hend := d.any_head?_tail
  unfold fractionText
  cases d.fraction with
  | none =>
    rw [Option.elim_none, List.nil_append]
    refine iff_of_false (fun hhead => ?_) (by simp)
    rw [hhead] at hend
    cases hend
  | some fraction => simp

lemma negative_eq (hcut : d.cut.negative = d'.cut.negative)
    (htext : d.negativeText = d'.negativeText) : d.negative = d'.negative := by
  unfold cut at hcut
  unfold negativeText at htext
  cases hneg : d.negative with
  | none =>
    cases hneg' : d'.negative with
    | none => rfl
    | some n' => simp [hneg, hneg'] at htext
  | some n =>
    cases hneg' : d'.negative with
    | none => simp [hneg, hneg'] at htext
    | some n' =>
      simp only [hneg, hneg', Option.map_some, Option.some.injEq, Prod.mk.injEq] at hcut
      simp only [hneg, hneg', Option.elim_some, List.cons.injEq, true_and] at htext
      rw [NegativeParts.eq_of_text_eq (affixText_injective hcut.1) (affixText_injective hcut.2)
        htext]

/-- Whether there is a number part does not depend on how a text is taken apart. -/
lemma number_ne_nil_of_text_eq (hnumber : d.number ≠ [])
    (h : d'.text = d.text) : d'.number ≠ [] := by
  intro hnil
  have hsplit := splitAffix_affixText d.lead
    (endsAffix_append d.isNumberChar_of_mem_number hnumber (affixText d.tail ++ d.negativeText))
  have hsplit' := splitAffix_affixText (d'.lead ++ d'.tail) d'.endsAffix_negativeText
  have htext : d'.text = affixText (d'.lead ++ d'.tail) ++ d'.negativeText := by
    simp [text, hnil, affixText]
  rw [← htext, h, text, hsplit] at hsplit'
  obtain ⟨-, hbehind⟩ := Prod.mk.inj (Option.some.inj hsplit')
  have hend := d'.any_head?_negativeText
  obtain ⟨c, rest, hcons⟩ := List.exists_cons_of_ne_nil hnumber
  have hc : isNumberChar c := d.isNumberChar_of_mem_number c (hcons ▸ List.mem_cons_self)
  rw [← hbehind, hcons] at hend
  simp [hc] at hend

/-- A text with a number part has one decomposition. -/
theorem eq_of_text_eq (hnumber : d.number ≠ []) (h : d.text = d'.text) : d = d' := by
  have hnumber' := number_ne_nil_of_text_eq hnumber h.symm
  have hcut : d.cut = d'.cut := by
    have hsome := d.cut?_text hnumber
    rw [h, d'.cut?_text hnumber'] at hsome
    exact (Option.some.inj hsome).symm
  have hlead : d.lead = d'.lead := affixText_injective (congrArg Cut.lead hcut)
  have hwhole : d.whole = d'.whole := congrArg Cut.whole hcut
  have htail : d.tail = d'.tail := affixText_injective (congrArg Cut.tail hcut)
  have hbehind : d.fractionText ++ (affixText d.tail ++ d.negativeText) =
      d'.fractionText ++ (affixText d'.tail ++ d'.negativeText) := by
    rw [text, text, number, number, hlead, hwhole, List.append_assoc, List.append_assoc] at h
    exact List.append_cancel_left (List.append_cancel_left h)
  -- The cut does not show whether there is a point in front of no digits, but the text does.
  have hfraction : d.fraction = d'.fraction := by
    have hsome : d.fraction.isSome ↔ d'.fraction.isSome := by
      rw [← head?_fractionText, ← head?_fractionText, hbehind]
    have hdigits : d.fraction.getD [] = d'.fraction.getD [] := congrArg Cut.fraction hcut
    cases hd : d.fraction with
    | none =>
      cases hd' : d'.fraction with
      | none => rfl
      | some ds' => simp [hd, hd'] at hsome
    | some ds =>
      cases hd' : d'.fraction with
      | none => simp [hd, hd'] at hsome
      | some ds' => simpa [hd, hd'] using hdigits
  have hnegative : d.negativeText = d'.negativeText := by
    rw [fractionText, fractionText, hfraction, htail] at hbehind
    exact List.append_cancel_left (List.append_cancel_left hbehind)
  exact Parts.ext hlead hwhole hfraction htail
    (negative_eq (congrArg Cut.negative hcut) hnegative)

end Parts

/-! ## What the conditions mean for the reader -/

/-- Digits are ordered if they are a run of the one kind and then a run of the other. -/
lemma all_dropWhile_iff {c d : Char} (hcd : c ≠ d) {ds : List Char} :
    (ds.dropWhile (· == c)).all (· == d) ↔
      ∃ m n, ds = List.replicate m c ++ List.replicate n d := by
  constructor
  · intro h
    refine ⟨(ds.takeWhile (· == c)).length, (ds.dropWhile (· == c)).length, ?_⟩
    have hfirst : ds.takeWhile (· == c) = List.replicate (ds.takeWhile (· == c)).length c :=
      List.eq_replicate_iff.2 ⟨rfl, fun x hx => by simpa using List.mem_takeWhile_imp hx⟩
    have hsecond : ds.dropWhile (· == c) = List.replicate (ds.dropWhile (· == c)).length d :=
      List.eq_replicate_iff.2 ⟨rfl, fun x hx => by simpa using List.all_eq_true.1 h x hx⟩
    rw [← hfirst, ← hsecond, List.takeWhile_append_dropWhile]
  · rintro ⟨m, n, rfl⟩
    have hend : (List.replicate n d).head?.any (· == c) = false := by
      cases n with
      | zero => rfl
      | succ n => simpa [List.replicate_succ] using hcd.symm
    have hrun : ∀ x ∈ List.replicate m c, (x == c) = true := by simp
    rw [(span_append hrun hend).2]
    simp

/-- The last comma tells the size of the groups. -/
lemma groupSize_append {before after : List Char} (hafter : ',' ∉ after) :
    groupSize (before ++ ',' :: after) = some after.length := by
  have hrun : ∀ c ∈ after.reverse, (c != ',') = true := by
    intro c hc
    rw [bne_iff_ne]
    rintro rfl
    exact hafter (List.mem_reverse.1 hc)
  rw [groupSize, if_pos (by simp), List.reverse_append, List.reverse_cons, List.append_assoc,
    List.singleton_append, takeWhile_append_cons hrun (by decide), List.length_reverse]

/-- The reader takes digits behind the last comma for the size of groups, if there are some. -/
lemma groups_iff {whole : List Char} {g : Option ℕ} :
    Groups whole g ↔ groupSize whole = g ∧ groupSize whole ≠ some 0 := by
  constructor
  · rintro (hcomma | ⟨rfl, hafter, hne⟩)
    · have hnone : groupSize whole = none := if_neg (by simpa using hcomma)
      simp [hnone]
    · rw [groupSize_append hafter]
      simpa using hne
  · rintro ⟨rfl, hne⟩
    by_cases hcomma : ',' ∈ whole
    · obtain ⟨after, before, heq, hafter⟩ :=
        List.eq_append_cons_of_mem (List.mem_reverse.2 hcomma)
      have hwhole : whole = before.reverse ++ ',' :: after.reverse := by
        rw [← List.reverse_inj, heq]
        simp
      have hafter' : ',' ∉ after.reverse := by simpa using hafter
      rw [hwhole, groupSize_append hafter'] at hne ⊢
      exact .some rfl hafter' (by simpa using hne)
    · have hnone : groupSize whole = none := if_neg (by simpa using hcomma)
      rw [hnone]
      exact .none hcomma

/-- The factors that pieces ask for are those of the signs among them. -/
lemma mem_factors {ps : List Piece} {f : ℕ} :
    f ∈ ps.filterMap Piece.factor? ↔
      (f = 100 ∧ .percent ∈ ps) ∨ (f = 1000 ∧ .perMille ∈ ps) := by
  simp only [List.mem_filterMap, Piece.factor?]
  constructor
  · rintro ⟨p, hp, hf⟩
    split at hf
    · next hpercent => exact .inl ⟨(Option.some.inj hf).symm, hpercent ▸ hp⟩
    · split at hf
      · next hmille => exact .inr ⟨(Option.some.inj hf).symm, hmille ▸ hp⟩
      · cases hf
  · rintro (⟨rfl, hp⟩ | ⟨rfl, hp⟩)
    · exact ⟨_, hp, rfl⟩
    · exact ⟨_, hp, rfl⟩

lemma factors_eq_nil_iff {ps : List Piece} :
    ps.filterMap Piece.factor? = [] ↔ .percent ∉ ps ∧ .perMille ∉ ps := by
  simp only [List.eq_nil_iff_forall_not_mem, mem_factors]
  simp [not_or, forall_and]

lemma forall_mem_factors_iff {ps : List Piece} {f : ℕ} :
    (∀ g ∈ ps.filterMap Piece.factor?, g = f) ↔
      (.percent ∈ ps → f = 100) ∧ (.perMille ∈ ps → f = 1000) := by
  simp only [mem_factors]
  simp [or_imp, forall_and, eq_comm]

/-- The common factor of all signs is what they ask for together. -/
lemma commonFactor_iff {ps : List Piece} {f : ℕ} :
    commonFactor (ps.filterMap Piece.factor?) = some f ↔ Scales ps f := by
  rw [commonFactor_eq_some_iff, ne_eq, factors_eq_nil_iff, forall_mem_factors_iff]
  constructor
  · rintro (⟨⟨hpercent, hmille⟩, rfl⟩ | ⟨hsign, hpercent, hmille⟩)
    · exact .one hpercent hmille
    · by_cases hin : .percent ∈ ps
      · obtain rfl := hpercent hin
        exact .percent hin fun hin' => absurd (hmille hin') (by decide)
      · by_cases hin' : .perMille ∈ ps
        · obtain rfl := hmille hin'
          exact .perMille hin hin'
        · exact absurd ⟨hin, hin'⟩ hsign
  · rintro (⟨hpercent, hmille⟩ | ⟨hpercent, hmille⟩ | ⟨hpercent, hmille⟩)
    · exact .inl ⟨⟨hpercent, hmille⟩, rfl⟩
    · exact .inr ⟨fun h => h.1 hpercent, fun _ => rfl, fun h => absurd h hmille⟩
    · exact .inr ⟨fun h => h.2 hmille, fun h => absurd h hpercent, fun _ => rfl⟩

/-- An affix is read unless there is a currency sign outside quotes. -/
lemma read?_affixText_iff {ps : List Piece} {a : Affix} :
    Affix.read? false (affixText ps) = some a ↔
      .currency ∉ ps ∧ a = ⟨unquoted false ps, ps.filterMap Piece.factor?⟩ := by
  rw [(Affix.read?_affixText ps).1, Affix.ofPieces?, Option.ite_none_left_eq_some,
    Option.some.injEq, eq_comm]

lemma isWholeOrdered_iff {ds : List Char} {n : ℕ} :
    (∃ m, ds = List.replicate m '#' ++ List.replicate n '0') ↔
      isWholeOrdered ds ∧ ds.count '0' = n := by
  have hne : '#' ≠ '0' := by decide
  rw [isWholeOrdered, all_dropWhile_iff hne]
  constructor
  · rintro ⟨m, rfl⟩
    exact ⟨⟨m, n, rfl⟩, by simp [List.count_replicate]⟩
  · rintro ⟨⟨m, n', rfl⟩, hcount⟩
    obtain rfl : n' = n := by simpa [List.count_replicate] using hcount
    exact ⟨m, rfl⟩

lemma isFractionOrdered_iff {ds : List Char} {n k : ℕ} :
    (∃ m, k = n + m ∧ ds = List.replicate n '0' ++ List.replicate m '#') ↔
      isFractionOrdered ds ∧ ds.count '0' = n ∧ ds.length = k := by
  have hne : '0' ≠ '#' := by decide
  rw [isFractionOrdered, all_dropWhile_iff hne]
  constructor
  · rintro ⟨m, rfl, rfl⟩
    exact ⟨⟨n, m, rfl⟩, by simp [List.count_replicate], by simp⟩
  · rintro ⟨⟨n', m, rfl⟩, hcount, rfl⟩
    obtain rfl : n' = n := by simpa [List.count_replicate] using hcount
    exact ⟨m, by simp, rfl⟩

namespace Parts

variable {d : Parts} {p : Pattern}

lemma readNegative?_cut {negative : Option (List Char × List Char)} {factors : List ℕ} :
    readNegative? d.cut.negative = some (negative, factors) ↔
      .currency ∉ d.negativePieces ∧
        negative = d.negative.map (fun n => (unquoted false n.lead, unquoted false n.tail)) ∧
        factors = d.negativePieces.filterMap Piece.factor? := by
  unfold cut negativePieces
  cases d.negative with
  | none => simp [readNegative?, eq_comm]
  | some n =>
    simp only [readNegative?, Option.map_some, Option.bind_eq_bind, Option.bind_eq_some_iff,
      read?_affixText_iff, Option.elim_some, List.mem_append, not_or, List.filterMap_append,
      Option.some.injEq, Prod.mk.injEq]
    constructor
    · rintro ⟨lead, ⟨hlead, rfl⟩, tail, ⟨htail, rfl⟩, rfl, rfl⟩
      exact ⟨⟨hlead, htail⟩, rfl, rfl⟩
    · rintro ⟨⟨hlead, htail⟩, rfl, rfl⟩
      exact ⟨_, ⟨hlead, rfl⟩, _, ⟨htail, rfl⟩, rfl, rfl⟩

lemma currency_notMem_pieces :
    .currency ∉ d.pieces ↔
      .currency ∉ d.lead ∧ .currency ∉ d.tail ∧ .currency ∉ d.negativePieces := by
  simp [pieces]

/-- The reader makes of the parts what they denote. -/
theorem makes_iff_denotes : d.cut.Makes p ↔ d.Denotes p := by
  constructor
  · rintro ⟨number, hlead, htail, hnegative, hfactor⟩
    obtain ⟨hleadCurrency, rfl⟩ := read?_affixText_iff.1 hlead
    obtain ⟨htailCurrency, rfl⟩ := read?_affixText_iff.1 htail
    obtain ⟨hnegCurrency, rfl, rfl⟩ := readNegative?_cut.1 hnegative
    rw [← List.filterMap_append, ← List.filterMap_append] at hfactor
    exact {
      whole := isWholeOrdered_iff.2 ⟨number.isWholeOrdered, rfl⟩
      fraction := isFractionOrdered_iff.2 ⟨number.isFractionOrdered, rfl, rfl⟩
      ne_nil := not_and_or.1 (mt List.append_eq_nil_iff.2 number.ne_nil)
      groups := groups_iff.2 ⟨rfl, number.groupSize_ne⟩
      currency := currency_notMem_pieces.2 ⟨hleadCurrency, htailCurrency, hnegCurrency⟩
      scales := commonFactor_iff.1 hfactor
      positive := rfl
      negative := rfl }
  · intro h
    obtain ⟨hwhole, hminWhole⟩ := isWholeOrdered_iff.1 h.whole
    obtain ⟨hfraction, hminFraction, hmaxFraction⟩ := isFractionOrdered_iff.1 h.fraction
    obtain ⟨hgrouping, hgroupSize⟩ := groups_iff.1 h.groups
    obtain ⟨hlead, htail, hneg⟩ := currency_notMem_pieces.1 h.currency
    have number : d.cut.HasNumber :=
      { ne_nil := mt List.append_eq_nil_iff.1 (not_and_or.2 h.ne_nil)
        isWholeOrdered := hwhole
        isFractionOrdered := hfraction
        groupSize_ne := hgroupSize }
    have hfactor := commonFactor_iff.2 h.scales
    rw [pieces, List.filterMap_append, List.filterMap_append] at hfactor
    have hpositive := h.positive
    have hnegative := h.negative
    obtain ⟨positive, negative, factor, minWhole, minFraction, maxFraction, grouping⟩ := p
    subst hminWhole hminFraction hmaxFraction hgrouping hpositive hnegative
    exact .intro number (read?_affixText_iff.2 ⟨hlead, rfl⟩)
      (read?_affixText_iff.2 ⟨htail, rfl⟩) (readNegative?_cut.2 ⟨hneg, rfl, rfl⟩) hfactor

lemma Denotes.number_ne_nil (h : d.Denotes p) : d.number ≠ [] := by
  intro hnil
  obtain ⟨hwhole, hfraction⟩ := List.append_eq_nil_iff.1 hnil
  rcases h.ne_nil with hne | hne
  · simp [hwhole] at hne
  · unfold fractionText at hfraction
    cases hd : d.fraction with
    | none => simp [hd] at hne
    | some fraction => simp [hd] at hfraction

end Parts

/-- The reader takes the texts of parts that denote a pattern, and it gives that pattern. -/
theorem read?_eq_some_iff_denotes {s : List Char} {p : Pattern} :
    read? s = some p ↔ ∃ d : Parts, d.text = s ∧ d.Denotes p := by
  rw [read?_eq_some_iff]
  constructor
  · rintro ⟨c, hcut, hmakes⟩
    obtain ⟨d, rfl, rfl⟩ := exists_parts_of_cut? hcut
    exact ⟨d, rfl, Parts.makes_iff_denotes.1 hmakes⟩
  · rintro ⟨d, rfl, hdenotes⟩
    exact ⟨d.cut, d.cut?_text hdenotes.number_ne_nil, Parts.makes_iff_denotes.2 hdenotes⟩

end PageScript.Decimal.Pattern

namespace PageScript

open Decimal

variable {σ : Type} [Host σ]

/-- A number is written under a pattern that can be read, and the text of one that cannot is
reported. -/
lemma Builtin.run_formatDecimal {pattern number : Value} {x : Double}
    (hnumber : number.toDouble = .ok x) (values : List Value) (host : σ) :
    formatDecimal.run ⟨pattern :: number :: values, host⟩ =
      match Pattern.read? pattern.text.toList with
      | some p => .ok () ⟨.string (String.ofList (p.format x)) :: values, host⟩
      | none => .error (.invalidPattern pattern.text) ⟨values, host⟩ := by
  simp only [run, Desk.pop, hnumber, Desk.ofExcept, Bind.bind, EStateM.bind, Pure.pure,
    EStateM.pure]
  cases Pattern.read? pattern.text.toList <;> rfl

/-- A text is a pattern if it is an affix, a number part and an affix, with a second such row behind
`;` at most, and satisfies the conditions on these parts.  There is one way to take it apart, which
tells the pattern.  Any other text is reported as a pattern that is not valid. -/
theorem Decimal.Pattern.reads_exactly_denoted (s : String) :
    (∀ p, read? s.toList = some p ↔ ∃ d : Parts, d.text = s.toList ∧ d.Denotes p) ∧
      (∀ (d d' : Parts) (p : Pattern), d.text = s.toList → d.Denotes p → d'.text = s.toList →
        d = d') ∧
      ((¬ ∃ (d : Parts) (p : Pattern), d.text = s.toList ∧ d.Denotes p) →
        ∀ (number : Value) (x : Double) (values : List Value) (host : σ),
          number.toDouble = .ok x →
          Builtin.formatDecimal.run ⟨.string s :: number :: values, host⟩ =
            .error (.invalidPattern s) ⟨values, host⟩) := by
  refine ⟨fun p => read?_eq_some_iff_denotes, ?_, ?_⟩
  · intro d d' p htext hdenotes htext'
    exact Parts.eq_of_text_eq hdenotes.number_ne_nil (htext.trans htext'.symm)
  · intro hnone number x values host hnumber
    have hread : read? s.toList = none := by
      rw [Option.eq_none_iff_forall_not_mem]
      intro p hp
      obtain ⟨d, htext, hdenotes⟩ := read?_eq_some_iff_denotes.1 hp
      exact hnone ⟨d, p, htext, hdenotes⟩
    simp only [Builtin.run_formatDecimal hnumber, Value.text, hread]

/-- A pattern with all its parts is taken apart; a text whose mandatory digit stands before an
optional one is not, and it is reported. -/
theorem Decimal.Pattern.reads_exactly_denoted_examples :
    (∃ d : Parts, d.text = "'#'#,##0.0#%;-(.)".toList ∧
      d.Denotes ⟨("#".toList, "%".toList), some ("-(".toList, ")".toList), 100, 1, 1, 2, some 3⟩) ∧
    Builtin.formatDecimal.run ⟨[.string "0#", .int 5], Buffer.ofParams ∅ ∅ ∅⟩ =
      .error (.invalidPattern "0#") ⟨[], Buffer.ofParams ∅ ∅ ∅⟩ := by
  have hread : read? "'#'#,##0.0#%;-(.)".toList =
      some ⟨("#".toList, "%".toList), some ("-(".toList, ")".toList), 100, 1, 1, 2, some 3⟩ := by
    decide
  have hnone : read? "0#".toList = none := by decide
  obtain ⟨hdenoted, -, -⟩ := reads_exactly_denoted (σ := Buffer) "'#'#,##0.0#%;-(.)"
  obtain ⟨hdenoted', -, hinvalid⟩ := reads_exactly_denoted (σ := Buffer) "0#"
  refine ⟨(hdenoted _).1 hread, hinvalid ?_ (.int 5) _ [] _ rfl⟩
  rintro ⟨d, p, htext, hdenotes⟩
  have hsome := (hdenoted' p).2 ⟨d, htext, hdenotes⟩
  rw [hnone] at hsome
  cases hsome

end PageScript
