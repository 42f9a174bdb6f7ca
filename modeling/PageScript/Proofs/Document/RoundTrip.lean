import PageScript.Proofs.Document.Accepted
import PageScript.Proofs.Token.Written
/-!
# Written documents read back

A well-formed document with finite numbers is written as a page, and the page is read as
that document again, every number and every string unchanged.

The scanner goes through the page piece by piece.  Where it stands in front of a piece, in the mode
that belongs there, it reads the tokens of that piece and stands behind it; the pieces put
together are a derivation of the document.
-/

namespace PageScript

namespace Scanner

/-- The scanner stands in front of `rest`, in this mode, and has not met the end of the page. -/
structure StandsAt (s : Scanner) (mode : Mode) (rest : List Char) : Prop where
  /-- The rules in force. -/
  mode_eq : s.mode = mode
  /-- What is ahead. -/
  rest_eq : s.rest = rest
  /-- The end of the page has not been read. -/
  last_ne : s.last ≠ some .endOfInput

variable {s : Scanner} {token : Token} {input rest : List Char}

/-! ## Single tokens -/

/-- No token of a tag begins with a blank. -/
lemma dropWhile_isGap_of_readTag (h : s.readTag input = (.ok token, rest)) :
    input.dropWhile Scan.isGap = input := by
  cases input with
  | nil => rfl
  | cons c tail =>
    by_cases hc : Scan.isGap c
    · have starts : Scan.startsNumeral (c :: tail) = false := by
        simp only [Scan.isGap, Bool.or_eq_true, beq_iff_eq] at hc
        rcases hc with ((rfl | rfl) | rfl) | rfl <;> cases tail <;> simp [Scan.startsNumeral]
      simp only [Scan.isGap, Bool.or_eq_true, beq_iff_eq] at hc
      rw [readTag] at h
      rcases hc with ((rfl | rfl) | rfl) | rfl <;>
        simp [starts, Text.isLetter, Scan.isOperator] at h
    · simp [hc]

namespace StandsAt

/-- A token that is not the end of the page is read, and the scanner stands behind it. -/
lemma take {mode : Mode} (h : s.StandsAt mode input) (hread : s.read = (.ok token, rest))
    (hne : token ≠ .endOfInput) : ∃ t, s.take = .ok (token, t) ∧ t.StandsAt mode rest :=
  ⟨_, take_of_read h.last_ne hread, h.mode_eq, rfl, by simpa using hne⟩

/-- A token of a tag is read, with or without a blank before it. -/
lemma take_tag (h : s.StandsAt .tag input ∨ s.StandsAt .tag (' ' :: input))
    (hread : s.readTag input = (.ok token, rest)) (hne : token ≠ .endOfInput) :
    ∃ t, s.take = .ok (token, t) ∧ t.StandsAt .tag rest := by
  have hgap := dropWhile_isGap_of_readTag hread
  rcases h with h | h
  · refine h.take ?_ hne
    rw [read, h.mode_eq, h.rest_eq, hgap, hread]
  · refine h.take ?_ hne
    rw [read, h.mode_eq, h.rest_eq, List.dropWhile_cons_of_pos (by decide), hgap, hread]

/-- A tag opening is read. -/
lemma take_tagOpen (h : s.StandsAt .text ('\x7b' :: '$' :: rest)) :
    ∃ t, s.take = .ok (.tagOpen, t) ∧ (t.setMode .tag).StandsAt .tag rest := by
  obtain ⟨t, ht, hstands⟩ := h.take (by rw [read, h.mode_eq, h.rest_eq]; rfl)
    (show Token.tagOpen ≠ .endOfInput by simp)
  exact ⟨t, ht, rfl, hstands.rest_eq, hstands.last_ne⟩

/-- A tag closing is read, with or without a blank before it. -/
lemma take_tagClose
    (h : s.StandsAt .tag ('$' :: '\x7d' :: rest) ∨ s.StandsAt .tag (' ' :: '$' :: '\x7d' :: rest)) :
    ∃ t, s.take = .ok (.tagClose, t) ∧ (t.setMode .text).StandsAt .text rest := by
  obtain ⟨t, ht, hstands⟩ := take_tag h readTag_tagClose (by simp)
  exact ⟨t, ht, rfl, hstands.rest_eq, hstands.last_ne⟩

/-- A run of text is read if it has a character. -/
lemma take_run {run : String} (h : s.StandsAt .text input)
    (htext : Scan.text [] input = .ok (run.toList, rest)) (hrun : run ≠ "") :
    ∃ t, s.take = .ok (.text run, t) ∧ t.StandsAt .text rest := by
  have hends : ¬ EndsText input := by
    intro hends
    rw [Scan.text_of_endsText hends] at htext
    obtain ⟨hnil, -⟩ := Prod.mk.inj (Except.ok.inj htext)
    exact hrun (by simpa using hnil.symm)
  have hne : input ≠ [] := by
    rintro rfl
    exact hends .nil
  have hread : s.readText input = (.ok (.text run), rest) := by
    unfold readText
    split
    · exact absurd (.tagOpen _) hends
    · simp [htext]
  refine h.take ?_ (by simp)
  rw [read, h.mode_eq, h.rest_eq]
  dsimp only
  rw [if_neg (by simpa using hne), hread]

/-- Escaped text is read up to a tag or to the end of the page. -/
lemma take_text {run : String} (h : s.StandsAt .text (escapeText run.toList ++ rest))
    (hrun : run ≠ "") (hrest : EndsText rest) :
    ∃ t, s.take = .ok (.text run, t) ∧ t.StandsAt .text rest :=
  h.take_run (Scan.text_escapeText hrest) hrun

/-! ## The elements of a tag -/

lemma take_element {e : Element} (h : s.StandsAt .tag (e.spacedText ++ ' ' :: rest))
    (hwf : e.IsWellFormed) (hfin : e.isFinite) :
    ∃ t, s.take = .ok (e.token, t) ∧ t.StandsAt .tag (' ' :: rest) :=
  take_tag (.inr h) (readTag_element hwf hfin) e.token_ne_endOfInput

/-- Elements and what follows them begin with a blank. -/
lemma exists_cons_spacedText (es : List Element) :
    ∃ tail, es.flatMap Element.spacedText ++ ' ' :: rest = ' ' :: tail := by
  cases es with
  | nil => exact ⟨rest, rfl⟩
  | cons e es => exact ⟨_, rfl⟩

lemma reads_elements {es : List Element}
    (h : s.StandsAt .tag (es.flatMap Element.spacedText ++ ' ' :: rest))
    (hwf : ∀ e ∈ es, e.IsWellFormed) (hfin : ∀ e ∈ es, e.isFinite) :
    ∃ t, s.Reads (es.map Element.token) t ∧ t.StandsAt .tag (' ' :: rest) := by
  induction es generalizing s with
  | nil => exact ⟨s, .nil s, h⟩
  | cons e es ih =>
    obtain ⟨hwf, hwf'⟩ := List.forall_mem_cons.1 hwf
    obtain ⟨hfin, hfin'⟩ := List.forall_mem_cons.1 hfin
    obtain ⟨tail, htail⟩ := @exists_cons_spacedText rest es
    rw [List.flatMap_cons, List.append_assoc, htail] at h
    obtain ⟨t, ht, h⟩ := h.take_element hwf hfin
    rw [← htail] at h
    obtain ⟨u, hu, h⟩ := ih h hwf' hfin'
    exact ⟨u, reads_element_iff.2 ⟨t, ht, hu⟩, h⟩

/-! ## Tags -/

/-- A tag is read once its tokens between the opening and the closing are. -/
lemma reads_tag {spelled : List Token} (h : s.StandsAt .text ('\x7b' :: '$' :: input))
    (hspelled : ∀ v : Scanner, v.StandsAt .tag input → ∃ w, v.Reads spelled w ∧
      (w.StandsAt .tag ('$' :: '\x7d' :: rest) ∨ w.StandsAt .tag (' ' :: '$' :: '\x7d' :: rest))) :
    ∃ t : Scanner, t.StandsAt .text rest ∧ ∀ {ts u}, t.Reads ts u →
      s.Reads (.tagOpen :: (spelled ++ .tagClose :: ts)) u := by
  obtain ⟨v, hv, h⟩ := h.take_tagOpen
  obtain ⟨w, hw, h⟩ := hspelled _ h
  obtain ⟨t, ht, h⟩ := take_tagClose h
  refine ⟨_, h, fun hts => Reads.cons_iff.2 ⟨v, hv, hw.trans (Reads.cons_iff.2 ⟨t, ht, hts⟩)⟩⟩

lemma reads_echo {es : List Element} (h : s.StandsAt .text ((Node.echo es).source ++ rest))
    (hwf : ∀ e ∈ es, e.IsWellFormed) (hfin : ∀ e ∈ es, e.isFinite) :
    ∃ t : Scanner, t.StandsAt .text rest ∧ ∀ {ts u}, t.Reads ts u →
      s.Reads (.tagOpen :: ((.name "=" :: es.map Element.token) ++ .tagClose :: ts)) u := by
  have hsource : (Node.echo es).source ++ rest =
      '\x7b' :: '$' :: '=' :: (es.flatMap Element.spacedText ++ ' ' :: '$' :: '\x7d' :: rest) := by
    simp [Node.source]
  rw [hsource] at h
  refine h.reads_tag fun v hv => ?_
  obtain ⟨w, hw, hv⟩ := take_tag (.inl hv) rfl (by simp)
  obtain ⟨t, ht, hv⟩ := hv.reads_elements hwf hfin
  exact ⟨t, reads_name_iff.2 ⟨w, hw, ht⟩, .inr hv⟩

lemma reads_loopStart {header : LoopHeader} (h : s.StandsAt .text (header.text ++ rest))
    (hwf : header.IsWellFormed) (hfin : ∀ e ∈ header.operands, e.isFinite) :
    ∃ t : Scanner, t.StandsAt .text rest ∧ ∀ {ts u}, t.Reads ts u →
      s.Reads (.tagOpen :: ((.name "FOR" :: .name header.name ::
        header.operands.map Element.token) ++ .tagClose :: ts)) u := by
  have hsource : header.text ++ rest =
      '\x7b' :: '$' :: ("FOR".toList ++ ' ' :: (header.name.toList ++
        (header.operands.flatMap Element.spacedText ++ ' ' :: '$' :: '\x7d' :: rest))) := by
    have opening : "\x7b$FOR ".toList = '\x7b' :: '$' :: ("FOR".toList ++ [' ']) := rfl
    have closing : " $\x7d".toList = [' ', '$', '\x7d'] := rfl
    unfold LoopHeader.text
    simp only [LoopHeader.operands, opening, closing, List.flatMap_cons, List.append_assoc,
      List.cons_append, List.nil_append]
  obtain ⟨tail, htail⟩ :=
    @exists_cons_spacedText ('$' :: '\x7d' :: rest) header.operands
  rw [hsource, htail] at h
  refine h.reads_tag fun v hv => ?_
  obtain ⟨w, hw, hv⟩ := take_tag (.inl hv) (readTag_name (by decide) (by decide)) (by simp)
  obtain ⟨x, hx, hv⟩ := take_tag (.inr hv) (readTag_name hwf.isName (by decide)) (by simp)
  rw [← htail] at hv
  obtain ⟨t, ht, hv⟩ := hv.reads_elements hwf.isWellFormed hfin
  rw [String.ofList_toList] at hw hx
  exact ⟨t, reads_name_iff.2 ⟨w, hw, reads_name_iff.2 ⟨x, hx, ht⟩⟩, .inr hv⟩

lemma reads_loopEnd (h : s.StandsAt .text ("\x7b$END$\x7d".toList ++ rest)) :
    ∃ t : Scanner, t.StandsAt .text rest ∧ ∀ {ts u}, t.Reads ts u →
      s.Reads (.tagOpen :: ([.name "END"] ++ .tagClose :: ts)) u := by
  have hsource : "\x7b$END$\x7d".toList ++ rest =
      '\x7b' :: '$' :: ("END".toList ++ '$' :: '\x7d' :: rest) := rfl
  rw [hsource] at h
  refine h.reads_tag fun v hv => ?_
  obtain ⟨w, hw, hv⟩ := take_tag (.inl hv) (readTag_name (by decide) (by decide)) (by simp)
  exact ⟨w, reads_name_iff.2 ⟨w, hw, .nil w⟩, .inl hv⟩

end StandsAt

end Scanner

/-! ## Documents -/

namespace Document

open Scanner

variable {d : Document} {rest : List Char}

/-- Where no run of text comes first, a document and what follows it end a run of text. -/
lemma endsText_source (hnext : ∀ run, Node.text run ∉ d.head?) (hrest : EndsText rest) :
    EndsText (source d ++ rest) := by
  cases d with
  | nil => simpa [source] using hrest
  | cons node d =>
    cases node with
    | text run => exact absurd rfl (hnext run)
    | echo es => exact .tagOpen _
    | loop header body => exact .tagOpen _

/-- The scanner reads a derivation of a document where the document is written. -/
theorem reads_source {s : Scanner} (hwf : IsWellFormed d) (hfin : ∀ e ∈ elements d, e.isFinite)
    (hrest : EndsText rest) (h : s.StandsAt .text (source d ++ rest)) :
    ∃ ts t, Nonempty (Derivation ts d) ∧ s.Reads ts t ∧ t.StandsAt .text rest := by
  induction hwf generalizing s rest with
  | nil => exact ⟨[], s, ⟨.nil⟩, .nil s, h⟩
  | @text run d hrun hnext _ ih =>
    rw [source, Node.source, List.append_assoc] at h
    obtain ⟨v, hv, h⟩ := h.take_text hrun (endsText_source hnext hrest)
    obtain ⟨ts, t, ⟨a⟩, ht, h⟩ := ih hfin hrest h
    exact ⟨_, t, ⟨.text run a⟩, reads_text_iff.2 ⟨v, hv, ht⟩, h⟩
  | @echo es d hes _ ih =>
    rw [elements, List.forall_mem_append] at hfin
    rw [source, List.append_assoc] at h
    obtain ⟨v, h, hv⟩ := h.reads_echo hes hfin.1
    obtain ⟨ts, t, ⟨a⟩, ht, h⟩ := ih hfin.2 hrest h
    exact ⟨_, t, ⟨.echo (.echo es) a⟩, hv ht, h⟩
  | @loop header body d hheader _ _ ihbody ih =>
    rw [elements, Node.elements, List.forall_mem_append, List.forall_mem_append] at hfin
    obtain ⟨⟨hfin, hfinbody⟩, hfinrest⟩ := hfin
    simp only [source, Node.source, List.append_assoc] at h
    obtain ⟨v, h, hv⟩ := h.reads_loopStart hheader hfin
    obtain ⟨inside, w, ⟨inner⟩, hw, h⟩ := ihbody hfinbody (.tagOpen _) h
    obtain ⟨x, h, hx⟩ := h.reads_loopEnd
    obtain ⟨ts, t, ⟨a⟩, ht, h⟩ := ih hfinrest hrest h
    have hstart := @Tag.Spelling.loopStart "FOR" header (by decide) hheader.isGrammatical
    exact ⟨_, t, ⟨.loop hstart inner (.loopEnd (by decide)) a⟩, hv (hw.trans (hx ht)), h⟩

/-- At the end of the page nothing is left to read but that. -/
lemma take_endOfInput {s : Scanner} (h : s.StandsAt .text []) :
    s.take = .ok (.endOfInput, { s with rest := [], last := some .endOfInput }) := by
  apply take_of_read h.last_ne
  rw [Scanner.read, h.mode_eq, h.rest_eq]
  rfl

/-- A reader takes a written document up to the end of the page. -/
theorem readFrom_source {s : Scanner} (hwf : IsWellFormed d) (hfin : ∀ e ∈ elements d, e.isFinite)
    (h : s.StandsAt .text (source d)) : readFrom [] [] s = .ok d := by
  rw [← List.append_nil (source d)] at h
  obtain ⟨ts, t, ⟨a⟩, hts, hend⟩ := reads_source hwf hfin .nil h
  rw [readFrom_of_derivation a hts, readFrom_endOfInput (take_endOfInput hend)]
  simp

/-- At first a scanner stands in front of the whole page. -/
lemma standsAt_ofSource (page : List Char) : (ofSource page).StandsAt .text page :=
  ⟨rfl, rfl, by simp [ofSource]⟩

/-- A well-formed document with finite numbers reads back from the page it is written as. -/
theorem read_source (hwf : IsWellFormed d) (hfin : ∀ e ∈ elements d, e.isFinite) :
    read (source d) = .ok d :=
  readFrom_source hwf hfin (standsAt_ofSource (source d))

/-- A loop in a loop, next to texts with escapes and to numbers behind operators. -/
def nestedDocument : Document :=
  [.text "\\\x7b",
    .loop ⟨"row", .number (.int (-1)), .variable "=", some (.string "a\"\n")⟩
      [.text "\x7b$",
        .loop ⟨"end", .number (.int 0), .number (.double ⟨0x8000000000000000⟩), none⟩
          [.echo [.operator '-', .number (.int 5), .variable "=", .function "sin"]],
        .text "$\x7d"],
    .echo []]

lemma isWellFormed_nestedDocument : IsWellFormed nestedDocument := by
  have inner : IsWellFormed [.echo [.operator '-', .number (.int 5), .variable "=",
      .function "sin"]] := by
    refine .echo ?_ .nil
    simp only [List.forall_mem_cons, Element.IsWellFormed]
    exact ⟨by decide, trivial, .inl trivial, by decide, by simp⟩
  refine .text (by decide) (by simp) (.loop ⟨by decide, ?_, by decide⟩
    (.text (by decide) (by simp) (.loop ⟨by decide, ?_, by decide⟩ inner
      (.text (by decide) (by simp) .nil))) (.echo (by simp) .nil))
  · simp [LoopHeader.operands, Element.IsWellFormed]
  · simp [LoopHeader.operands, Element.IsWellFormed]

lemma isFinite_nestedDocument : ∀ e ∈ elements nestedDocument, e.isFinite := by decide

theorem read_source_nestedDocument :
    IsWellFormed nestedDocument ∧ (∀ e ∈ elements nestedDocument, e.isFinite) ∧
      read (source nestedDocument) = .ok nestedDocument :=
  ⟨isWellFormed_nestedDocument, isFinite_nestedDocument,
    read_source isWellFormed_nestedDocument isFinite_nestedDocument⟩

end Document

end PageScript
