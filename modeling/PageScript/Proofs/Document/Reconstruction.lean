import PageScript.Proofs.Document.RoundTrip
import PageScript.Proofs.Double.Closeness
import PageScript.Proofs.Token.Shape
/-!
# What is read, written and read again

A document that was read is well-formed, so it is read again from the page it is written as, if its
numbers are finite.  A numeral of hundreds of digits stands for an infinite double, though, and
an infinite double is written as a word: the word reads as a variable.  Since no double is
close to an infinite one, nothing that is read from such a page is the same document again.
-/

namespace PageScript

/-! ## Documents that are the same -/

namespace Element

variable {e e' : Element}

lemma same_self (h : e.isFinite) : e.same e := by
  unfold same
  split
  · next heq =>
    cases heq
    exact decide_eq_true (Double.close_self h)
  · simp

/-- Only a finite element is the same as another. -/
lemma isFinite_of_same (h : e'.same e) : e.isFinite := by
  cases e with
  | number n =>
    cases n with
    | int => rfl
    | double y =>
      unfold same at h
      split at h
      · next heq =>
        cases heq
        exact Double.isFinite_of_close (of_decide_eq_true h)
      · next hne => exact absurd rfl (hne y y (of_decide_eq_true h))
  | string | «variable» | function | operator => rfl

lemma sameAll_self {es : List Element} (h : ∀ e ∈ es, e.isFinite) : sameAll es es := by
  induction es with
  | nil => rfl
  | cons e es ih =>
    obtain ⟨he, hes⟩ := List.forall_mem_cons.1 h
    rw [sameAll, same_self he, ih hes]
    rfl

lemma isFinite_of_sameAll {es es' : List Element} (h : sameAll es' es) :
    ∀ e ∈ es, e.isFinite := by
  induction es generalizing es' with
  | nil => simp
  | cons e es ih =>
    cases es' with
    | nil => simp [sameAll] at h
    | cons e' es' =>
      rw [sameAll, Bool.and_eq_true] at h
      exact List.forall_mem_cons.2 ⟨isFinite_of_same h.1, ih h.2⟩

end Element

namespace LoopHeader

variable {h h' : LoopHeader}

lemma same_self (hfin : ∀ e ∈ h.operands, e.isFinite) : h.same h := by
  simp only [operands, List.forall_mem_cons] at hfin
  obtain ⟨hstart, hstop, hstep⟩ := hfin
  simp [same, Element.same_self hstart, Element.same_self hstop, Element.sameAll_self hstep]

lemma isFinite_of_same (hsame : h'.same h) : ∀ e ∈ h.operands, e.isFinite := by
  simp only [same, Bool.and_eq_true] at hsame
  obtain ⟨⟨⟨-, hstart⟩, hstop⟩, hstep⟩ := hsame
  simp only [operands, List.forall_mem_cons]
  exact ⟨Element.isFinite_of_same hstart, Element.isFinite_of_same hstop,
    Element.isFinite_of_sameAll hstep⟩

end LoopHeader

namespace Document

variable {d d' : Document}

lemma same_self (hwf : IsWellFormed d) (hfin : ∀ e ∈ elements d, e.isFinite) : same d d := by
  induction hwf with
  | nil => rfl
  | text _ _ _ ih =>
    simp only [elements, Node.elements, List.nil_append] at hfin
    simp [same, Node.same, ih hfin]
  | echo _ _ ih =>
    simp only [elements, Node.elements, List.forall_mem_append] at hfin
    simp [same, Node.same, Element.sameAll_self hfin.1, ih hfin.2]
  | loop _ _ _ ihbody ih =>
    simp only [elements, Node.elements, List.forall_mem_append] at hfin
    simp [same, Node.same, LoopHeader.same_self hfin.1.1, ihbody hfin.1.2, ih hfin.2]

/-- What is the same as a document has a first node and others, each the same. -/
lemma exists_of_same_cons {node : Node} (h : same d' (node :: d)) :
    ∃ node' rest, Node.same node' node ∧ same rest d := by
  cases d' with
  | nil => simp [same] at h
  | cons node' rest =>
    rw [same, Bool.and_eq_true] at h
    exact ⟨node', rest, h.1, h.2⟩

/-- Only a document with finite numbers is the same as another. -/
lemma isFinite_of_same (hwf : IsWellFormed d) (h : same d' d) : ∀ e ∈ elements d, e.isFinite := by
  induction hwf generalizing d' with
  | nil => simp [elements]
  | text _ _ _ ih =>
    obtain ⟨_, rest, -, hrest⟩ := exists_of_same_cons h
    rw [elements, Node.elements, List.nil_append]
    exact ih hrest
  | echo _ _ ih =>
    obtain ⟨node, rest, hnode, hrest⟩ := exists_of_same_cons h
    rw [elements, Node.elements, List.forall_mem_append]
    cases node with
    | echo => exact ⟨Element.isFinite_of_sameAll hnode, ih hrest⟩
    | text | loop => simp [Node.same] at hnode
  | loop _ _ _ ihbody ih =>
    obtain ⟨node, rest, hnode, hrest⟩ := exists_of_same_cons h
    rw [elements, Node.elements, List.forall_mem_append, List.forall_mem_append]
    cases node with
    | loop =>
      rw [Node.same, Bool.and_eq_true] at hnode
      exact ⟨⟨LoopHeader.isFinite_of_same hnode.1, ihbody hnode.2⟩, ih hrest⟩
    | text | echo => simp [Node.same] at hnode

end Document

/-! ## Documents that are read -/

/-- A token of a page stands for an element that a tag can hold. -/
lemma Element.isWellFormed_of_token {e : Element} (h : e.token.IsWellFormed) :
    e.IsWellFormed := by
  cases e <;> exact h

/-- The opening tag of a loop on a page is one that a page can hold. -/
lemma Tag.Spelling.isWellFormed {header : LoopHeader} {ts : List Token}
    (h : (Tag.loopStart header).Spelling ts) (hts : ∀ t ∈ ts, t.IsWellFormed) :
    header.IsWellFormed := by
  cases h with
  | loopStart _ hheader =>
    obtain ⟨-, hname, hoperands⟩ := by simpa only [List.forall_mem_cons] using hts
    refine ⟨?_, fun e he => ?_, hheader.isLoopOperand⟩
    · exact hname.resolve_left hheader.name_ne
    · exact Element.isWellFormed_of_token (hoperands _ (List.mem_map_of_mem he))

namespace Derivation

open Token (AreWellFormed)

variable {ts : List Token} {d : Document}

/-- Where a document begins with a run of text, its first token is one. -/
lemma isText_of_mem_head? (a : Derivation ts d) {run : String} (h : .text run ∈ d.head?) :
    ∃ t ∈ ts.head?, t.isText := by
  cases a with
  | nil => simp at h
  | text run' => exact ⟨_, rfl, rfl⟩
  | echo => simp at h
  | loop => simp at h

/-- What tokens of a page derive is well-formed. -/
theorem isWellFormed (a : Derivation ts d) (h : AreWellFormed ts) : Document.IsWellFormed d := by
  induction a with
  | nil => exact .nil
  | @text ts d run a ih =>
    have hrest := ih (h.of_isInfix (List.suffix_cons _ _).isInfix)
    refine .text (h.forall_mem _ List.mem_cons_self) (fun run' hrun' => ?_) hrest
    obtain ⟨t, ht, htext⟩ := a.isText_of_mem_head? hrun'
    exact (List.isChain_cons.1 h.isChain).1 t ht rfl htext
  | @echo elements tag ts d spelling a ih =>
    have hrest : ts <:+: .tagOpen :: (tag ++ .tagClose :: ts) :=
      ⟨.tagOpen :: (tag ++ [.tagClose]), [], by simp⟩
    refine .echo (fun e he => ?_) (ih (h.of_isInfix hrest))
    cases spelling
    exact Element.isWellFormed_of_token (h.forall_mem _ (by simp [List.mem_map_of_mem he]))
  | @loop header opening inside closing ts body d start inner stop a ihinner ih =>
    have hinside : inside <:+: .tagOpen :: (opening ++ .tagClose ::
        (inside ++ .tagOpen :: (closing ++ .tagClose :: ts))) :=
      ⟨.tagOpen :: (opening ++ [.tagClose]), .tagOpen :: (closing ++ .tagClose :: ts), by simp⟩
    have hrest : ts <:+: .tagOpen :: (opening ++ .tagClose ::
        (inside ++ .tagOpen :: (closing ++ .tagClose :: ts))) :=
      ⟨.tagOpen :: (opening ++ .tagClose :: (inside ++ .tagOpen :: (closing ++ [.tagClose]))), [],
        by simp⟩
    refine .loop ?_ (ihinner (h.of_isInfix hinside)) (ih (h.of_isInfix hrest))
    have hstart : ∀ t ∈ opening, t.IsWellFormed := fun t ht => h.forall_mem t (by simp [ht])
    exact start.isWellFormed hstart

end Derivation

namespace Document

open Scanner

variable {page : List Char} {d : Document}

/-- What is read is well-formed. -/
theorem isWellFormed_of_read (h : read page = .ok d) : IsWellFormed d := by
  obtain ⟨ts, u, hts, hcompletes⟩ := completes_of_readFrom h
  cases hcompletes with
  | page rest =>
    exact rest.isWellFormed (hts.areWellFormed.of_isInfix (List.prefix_append _ _).isInfix)

/-- A page is read, written and read again as the same document, and written the same again,
exactly if all numbers on it are finite. -/
theorem read_again_iff (h : read page = .ok d) :
    (∃ d', read (source d) = .ok d' ∧ same d' d ∧ source d' = source d) ↔
      ∀ e ∈ elements d, e.isFinite := by
  have hwf := isWellFormed_of_read h
  constructor
  · rintro ⟨d', -, hsame, -⟩
    exact isFinite_of_same hwf hsame
  · intro hfin
    exact ⟨d, readFrom_source hwf hfin (standsAt_ofSource _), same_self hwf hfin, rfl⟩

theorem read_again_nestedDocument :
    read (source nestedDocument) = .ok nestedDocument ∧
      ((∃ d', read (source nestedDocument) = .ok d' ∧ same d' nestedDocument ∧
          source d' = source nestedDocument) ↔ ∀ e ∈ elements nestedDocument, e.isFinite) := by
  have hread : read (source nestedDocument) = .ok nestedDocument :=
    readFrom_source isWellFormed_nestedDocument isFinite_nestedDocument (standsAt_ofSource _)
  exact ⟨hread, read_again_iff hread⟩

/-- A numeral that is too great for a finite double. -/
def hugeNumeral : List Char := '2' :: List.replicate 308 '0'

/-- A page that writes it. -/
def hugePage : List Char := "\x7b$= ".toList ++ hugeNumeral ++ " $\x7d".toList

/-- What the page is read as. -/
def infiniteDocument : Document := [.echo [.number (.double ⟨0x7ff0000000000000⟩)]]

lemma read_hugePage : read hugePage = .ok infiniteDocument := by
  have hnumeral : Scan.IsNumeral hugeNumeral := by
    refine .unsigned (by decide) fun c hc => ?_
    obtain rfl := List.eq_of_mem_replicate hc
    decide
  have hnumber : Scan.number? hugeNumeral = some (.double ⟨0x7ff0000000000000⟩) := by
    decide +kernel
  have hpage : hugePage = '\x7b' :: '$' :: '=' :: ' ' ::
      (hugeNumeral ++ ' ' :: '$' :: '\x7d' :: []) := by
    have opening : "\x7b$= ".toList = ['\x7b', '$', '=', ' '] := rfl
    have closing : " $\x7d".toList = [' ', '$', '\x7d'] := rfl
    simp only [hugePage, opening, closing, List.cons_append, List.nil_append]
  have hspelled (v : Scanner)
      (hv : v.StandsAt .tag ('=' :: ' ' :: (hugeNumeral ++ ' ' :: '$' :: '\x7d' :: []))) :
      ∃ w, v.Reads (.name "=" :: [.number (.double ⟨0x7ff0000000000000⟩)].map Element.token) w ∧
        (w.StandsAt .tag ('$' :: '\x7d' :: []) ∨ w.StandsAt .tag (' ' :: '$' :: '\x7d' :: [])) := by
    obtain ⟨w, hw, hv⟩ := StandsAt.take_tag (.inl hv) rfl (by simp)
    obtain ⟨x, hx, hv⟩ := StandsAt.take_tag (.inr hv) (readTag_numeral hnumeral hnumber) (by simp)
    exact ⟨x, reads_name_iff.2 ⟨w, hw, reads_element_iff.2 ⟨x, hx, .nil x⟩⟩, .inr hv⟩
  have start := standsAt_ofSource hugePage
  rw [hpage] at start
  obtain ⟨t, hend, hreads⟩ := start.reads_tag hspelled
  rw [read, hpage, readFrom_of_derivation (.echo (.echo _) .nil) (hreads (.nil t)),
    readFrom_endOfInput (take_endOfInput hend)]
  rfl

/-- The number is written as a word, and the word is read as a variable. -/
lemma read_source_infiniteDocument :
    read (source infiniteDocument) = .ok [.echo [.variable "inf"]] := by
  have hsource : source infiniteDocument = source [.echo [.variable "inf"]] := by
    have htext : (Element.number (.double ⟨0x7ff0000000000000⟩)).text =
        (Element.variable "inf").text := rfl
    simp only [infiniteDocument, source, Node.source, List.flatMap_cons, Element.spacedText, htext]
  have hwf : IsWellFormed [.echo [.variable "inf"]] := by
    refine .echo (fun e he => ?_) .nil
    obtain rfl := List.mem_singleton.1 he
    exact .inr (by decide)
  rw [hsource]
  exact readFrom_source hwf (by decide) (standsAt_ofSource _)

theorem not_read_again_hugePage :
    ∃ d, read hugePage = .ok d ∧
      ¬ ∃ d', read (source d) = .ok d' ∧ same d' d ∧ source d' = source d := by
  refine ⟨infiniteDocument, read_hugePage, ?_⟩
  rintro ⟨d', hread, hsame, -⟩
  rw [read_source_infiniteDocument] at hread
  obtain rfl := Except.ok.inj hread
  simp [infiniteDocument, same, Node.same, Element.sameAll, Element.same] at hsame

end Document

end PageScript
