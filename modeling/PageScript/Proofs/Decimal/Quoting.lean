import PageScript.Proofs.Decimal.Grammar
/-!
# Quoting makes an affix literal

Any text can be put into a pattern as an affix: every quote in it is doubled, and the whole is put
between quotes.  The quotes of such an affix part it into runs, one for each stretch of the text
between its quotes, and each two runs in a row stand for the quote between them.  Only a text of
nothing but quotes is out of reach, since its runs are all empty, and each of them is a quote.
-/

namespace PageScript.Decimal

/-- The text with each quote doubled. -/
def doubled (t : List Char) : List Char :=
  t.flatMap fun c => if c = '\'' then ['\'', '\''] else [c]

/-- The affix that stands for a text: nothing for no text, else the text with its quotes doubled
between two quotes. -/
def quote : List Char → List Char
  | [] => []
  | c :: t => '\'' :: (doubled (c :: t) ++ ['\''])

/-- Whether there is nothing to quote, or something besides quotes. -/
def IsQuotable (t : List Char) : Prop := t = [] ∨ ∃ c ∈ t, c ≠ '\''

/-- The runs of a quoted text of which `run` has been read. -/
def quotedRuns (run : List Char) (hrun : '\'' ∉ run) : List Char → List Piece
  | [] => [.quoted run hrun]
  | c :: t =>
    if hc : c = '\'' then .quoted run hrun :: quotedRuns [] List.not_mem_nil t
    else quotedRuns (run ++ [c]) (by simpa [hrun] using Ne.symm hc) t

/-- The pieces of the affix that stands for a text. -/
def literalPieces : List Char → List Piece
  | [] => []
  | c :: t => quotedRuns [] List.not_mem_nil (c :: t)

variable {run t : List Char} {hrun : '\'' ∉ run}

lemma affixText_quotedRuns :
    affixText (quotedRuns run hrun t) = '\'' :: (run ++ (doubled t ++ ['\''])) := by
  induction t generalizing run with
  | nil => simp [quotedRuns, doubled]
  | cons c t ih =>
    rw [quotedRuns]
    split
    · next hc =>
      rw [affixText_quoted, ih]
      simp [doubled, hc]
    · next hc =>
      rw [ih]
      simp [doubled, hc]

/-- Behind a run with characters in it the first run of a quoted text begins with a quote. -/
lemma unquoted_true_quotedRuns : unquoted true (quotedRuns run hrun t) = '\'' :: (run ++ t) := by
  induction t generalizing run with
  | nil => simp [quotedRuns, unquoted]
  | cons c t ih =>
    rw [quotedRuns]
    split
    · next hc =>
      rw [unquoted, if_pos rfl, ih, hc]
      rfl
    · rw [ih, List.append_assoc]
      rfl

/-- The runs of a quoted text stand for the text, unless all of them are empty. -/
lemma unquoted_false_quotedRuns (h : run ≠ [] ∨ ∃ c ∈ t, c ≠ '\'') :
    unquoted false (quotedRuns run hrun t) = run ++ t := by
  induction t generalizing run with
  | nil =>
    have hne : run ≠ [] := by simpa using h
    simp [quotedRuns, unquoted, hne]
  | cons c t ih =>
    rw [quotedRuns]
    split
    · next hc =>
      rw [unquoted, if_neg Bool.false_ne_true, hc]
      split
      -- An empty run gives its quote at once, and what comes behind it starts afresh.
      · next hnil =>
        have hrest : ∃ c ∈ t, c ≠ '\'' := by simpa [hnil, hc] using h
        rw [ih (.inr hrest), hnil]
        rfl
      · rw [unquoted_true_quotedRuns]
        rfl
    · rw [ih (.inl (by simp)), List.append_assoc]
      rfl

/-- A quoted text has no character outside quotes. -/
lemma plain_notMem_quotedRuns (c : Char) (hc : isPatternChar c = false) :
    .plain c hc ∉ quotedRuns run hrun t := by
  induction t generalizing run with
  | nil => simp [quotedRuns]
  | cons d t ih =>
    rw [quotedRuns]
    split
    · simp [ih]
    · exact ih

lemma affixText_literalPieces (t : List Char) : affixText (literalPieces t) = quote t := by
  cases t with
  | nil => rfl
  | cons c t => exact affixText_quotedRuns

/-- The affix that stands for a text means that text. -/
lemma unquoted_literalPieces (ht : IsQuotable t) : unquoted false (literalPieces t) = t := by
  cases t with
  | nil => rfl
  | cons c t => exact unquoted_false_quotedRuns (.inr (by simpa [IsQuotable] using ht))

/-- What is quoted is neither a sign nor refused. -/
lemma plain_notMem_literalPieces (c : Char) (hc : isPatternChar c = false) (t : List Char) :
    .plain c hc ∉ literalPieces t := by
  cases t with
  | nil => simp [literalPieces]
  | cons d t => exact plain_notMem_quotedRuns c hc

namespace Pattern

/-- An affix does not begin with a character of the number part. -/
lemma eq_nil_of_isNumberChar {ps : List Piece} (h : ∀ c ∈ affixText ps, isNumberChar c) :
    ps = [] := by
  cases ps with
  | nil => rfl
  | cons p ps =>
    cases p with
    | plain c hc =>
      have hnumber := h c (by simp)
      rw [isNumberChar_eq_false hc] at hnumber
      cases hnumber
    | quoted run hrun => exact absurd (h '\'' (by simp)) (by decide)

/-- A number part on its own has no affixes. -/
lemma Parts.number_eq_of_text {d : Parts} (h : ∀ c ∈ d.text, isNumberChar c) :
    d.number = d.text := by
  rw [text] at h
  obtain ⟨hlead, hbehind⟩ := List.forall_mem_append.1 h
  obtain ⟨-, hbehind⟩ := List.forall_mem_append.1 hbehind
  obtain ⟨htail, hnegative⟩ := List.forall_mem_append.1 hbehind
  have hnone : d.negativeText = [] := by
    unfold negativeText at hnegative ⊢
    cases hneg : d.negative with
    | none => rfl
    | some n => exact absurd (hnegative ';' (by simp [hneg])) (by decide)
  rw [text, eq_nil_of_isNumberChar hlead, eq_nil_of_isNumberChar htail, hnone]
  simp

/-- The text of a pattern whose affixes are quoted; the row for negative numbers has the same number
part. -/
def quotedPattern (lead number tail : List Char) (negative : Option (List Char × List Char)) :
    List Char :=
  quote lead ++ number ++ quote tail ++
    negative.elim [] fun (lead, tail) => ';' :: (quote lead ++ number ++ quote tail)

namespace Parts

variable (d : Parts) (hnumber : d.number ≠ []) (lead tail : List Char)
  (negative : Option (List Char × List Char))

/-- The row for negative numbers with quoted affixes around a number part. -/
def quotedRow (affixes : List Char × List Char) : NegativeParts where
  lead := literalPieces affixes.1
  number := d.number
  tail := literalPieces affixes.2
  number_ne_nil := hnumber
  isNumberChar_of_mem := d.isNumberChar_of_mem_number

/-- The parts of a pattern with quoted affixes around a number part. -/
def withQuoted : Parts where
  lead := literalPieces lead
  whole := d.whole
  fraction := d.fraction
  tail := literalPieces tail
  negative := negative.map (d.quotedRow hnumber)
  isWholeChar_of_mem := d.isWholeChar_of_mem
  isFractionChar_of_mem := d.isFractionChar_of_mem

lemma text_withQuoted :
    (d.withQuoted hnumber lead tail negative).text = quotedPattern lead d.number tail negative := by
  have hrow : (d.withQuoted hnumber lead tail negative).number = d.number := rfl
  rw [text, hrow, quotedPattern, withQuoted, negativeText]
  cases negative with
  | none => simp [affixText_literalPieces]
  | some affixes => simp [affixText_literalPieces, NegativeParts.text, quotedRow]

lemma plain_notMem_withQuoted (c : Char) (hc : isPatternChar c = false) :
    .plain c hc ∉ (d.withQuoted hnumber lead tail negative).pieces := by
  rw [pieces, negativePieces, withQuoted]
  cases negative with
  | none => simp [plain_notMem_literalPieces]
  | some affixes => simp [plain_notMem_literalPieces, quotedRow]

variable {d lead tail negative}

/-- Quoted affixes put their texts in place of what the affixes meant, and leave the rest. -/
lemma Denotes.withQuoted {q : Pattern} (h : d.Denotes q) (hlead : IsQuotable lead)
    (htail : IsQuotable tail)
    (hnegative : ∀ affixes ∈ negative, IsQuotable affixes.1 ∧ IsQuotable affixes.2) :
    (d.withQuoted h.number_ne_nil lead tail negative).Denotes
      { q with positive := (lead, tail), negative, factor := 1 } where
  whole := h.whole
  fraction := h.fraction
  ne_nil := h.ne_nil
  groups := h.groups
  currency := plain_notMem_withQuoted _ _ _ _ _ _ _
  scales := .one (plain_notMem_withQuoted _ _ _ _ _ _ _) (plain_notMem_withQuoted _ _ _ _ _ _ _)
  positive := by
    rw [Parts.withQuoted]
    simp only [unquoted_literalPieces hlead, unquoted_literalPieces htail]
  negative := by
    rw [Parts.withQuoted]
    cases negative with
    | none => rfl
    | some affixes =>
      obtain ⟨hnegLead, hnegTail⟩ := hnegative affixes rfl
      simp only [Option.map_some, quotedRow, unquoted_literalPieces hnegLead,
        unquoted_literalPieces hnegTail]

end Parts

/-- Quoted affixes mean the quoted texts, whatever characters these have, and do not touch what the
number part means. -/
theorem read?_quotedPattern {number lead tail : List Char}
    {negative : Option (List Char × List Char)} {q : Pattern}
    (hnumber : ∀ c ∈ number, isNumberChar c) (hread : read? number = some q)
    (hlead : IsQuotable lead) (htail : IsQuotable tail)
    (hnegative : ∀ affixes ∈ negative, IsQuotable affixes.1 ∧ IsQuotable affixes.2) :
    read? (quotedPattern lead number tail negative) =
      some { q with positive := (lead, tail), negative, factor := 1 } := by
  obtain ⟨d, rfl, hdenotes⟩ := read?_eq_some_iff_denotes.1 hread
  rw [← Parts.number_eq_of_text hnumber]
  exact read?_eq_some_iff_denotes.2
    ⟨_, d.text_withQuoted hdenotes.number_ne_nil lead tail negative,
      hdenotes.withQuoted hlead htail hnegative⟩

/-- Affixes full of characters with a meaning, quoted. -/
theorem read?_quotedPattern_signs :
    read? (quotedPattern "#'%".toList "#,##0.0#".toList [] (some ("¤;\n".toList, "''.0".toList))) =
      some ⟨("#'%".toList, []), some ("¤;\n".toList, "''.0".toList), 1, 1, 1, 2, some 3⟩ := by
  have hnumber : ∀ c ∈ "#,##0.0#".toList, isNumberChar c := by
    simp [isNumberChar, isWholeChar]
  have hread : read? "#,##0.0#".toList = some ⟨([], []), none, 1, 1, 1, 2, some 3⟩ := by decide
  have hlead : IsQuotable "#'%".toList := .inr ⟨'#', by decide, by decide⟩
  have hnegLead : IsQuotable "¤;\n".toList := .inr ⟨'¤', by decide, by decide⟩
  have hnegTail : IsQuotable "''.0".toList := .inr ⟨'.', by decide, by decide⟩
  refine read?_quotedPattern hnumber hread hlead (.inl rfl) ?_
  rintro affixes ⟨⟩
  exact ⟨hnegLead, hnegTail⟩

end Pattern

end PageScript.Decimal
