import PageScript.Proofs.Document.Grammar
import PageScript.Proofs.Token.Reads
/-!
# Tags are read as they are spelled

The reader of a tag succeeds exactly where the tokens spell one, and it takes the tokens up to
the tag closing.  The step of a loop may be missing; then the token in its place is the tag closing
already, and nothing more is read.
-/

namespace PageScript

/-- A computation that may fail succeeds if both of its parts do. -/
lemma bind_eq_ok_iff {ε α β : Type} {x : Except ε α} {f : α → Except ε β} {b : β} :
    (x >>= f) = .ok b ↔ ∃ a, x = .ok a ∧ f a = .ok b := by
  cases x with
  | error e => simp [bind, Except.bind]
  | ok a => simp [bind, Except.bind]

lemma bind_eq_error_iff {ε α β : Type} {x : Except ε α} {f : α → Except ε β} {e : ε} :
    x >>= f = .error e ↔ x = .error e ∨ ∃ a, x = .ok a ∧ f a = .error e := by
  cases x <;> simp [bind, Except.bind]

namespace Scanner

variable {s t u : Scanner} {ts : List Token}

lemma reads_element_iff {e : Element} :
    s.Reads (e.token :: ts) u ↔ ∃ t, s.take = .ok (e.token, t) ∧ t.Reads ts u :=
  Reads.cons_iff_of_ne e.token_ne_tagOpen e.token_ne_tagClose

lemma reads_name_iff {name : String} :
    s.Reads (.name name :: ts) u ↔ ∃ t, s.take = .ok (.name name, t) ∧ t.Reads ts u :=
  reads_element_iff (e := .variable name)

/-- A tag closing puts the rules of text in force. -/
lemma reads_tagClose_iff :
    s.Reads [.tagClose] u ↔ ∃ t, s.take = .ok (.tagClose, t) ∧ t.setMode .text = u := by
  simp only [Reads.cons_iff, Reads.nil_iff, modeAfter]

end Scanner

namespace Element

lemma ofToken_eq_ok_iff {token : Token} {e : Element} :
    ofToken token = .ok e ↔ token = e.token := by
  rw [← ofToken?_eq_some_iff, ofToken]
  cases ofToken? token <;> simp

lemma token_eq_of_isLoopOperand {e : Element} (h : e.isLoopOperand) :
    ∀ name, e.token ≠ .function name := by
  cases e <;> simp_all [token, isLoopOperand]

end Element

namespace Tag

open Scanner

variable {s t u : Scanner}

/-! ## Parts of tags -/

lemma readClose_eq_ok_iff : readClose s = .ok t ↔ s.take = .ok (.tagClose, t) := by
  unfold readClose
  split <;> simp_all

lemma readVariable_eq_ok_iff {name : String} :
    readVariable s = .ok (name, t) ↔ name ≠ "=" ∧ s.take = .ok (.name name, t) := by
  unfold readVariable
  split
  · simp_all
  · next h =>
    rw [h]
    split
    · next hname =>
      simp only [reduceCtorEq, Except.ok.injEq, Prod.mk.injEq, Token.name.injEq, false_iff]
      rintro ⟨hne, rfl, -⟩
      exact hne hname
    · next hname =>
      simp only [Except.ok.injEq, Prod.mk.injEq, Token.name.injEq]
      constructor
      · rintro ⟨rfl, rfl⟩
        exact ⟨hname, rfl, rfl⟩
      · rintro ⟨-, rfl, rfl⟩
        exact ⟨rfl, rfl⟩
  · next hname h =>
    rw [h]
    simp only [reduceCtorEq, Except.ok.injEq, Prod.mk.injEq, false_iff]
    rintro ⟨-, rfl, -⟩
    exact hname _ rfl

/-- A value is missing exactly if the tag is closed in its place. -/
lemma readOperand_none_iff : readOperand s = .ok (none, t) ↔ s.take = .ok (.tagClose, t) := by
  unfold readOperand
  split
  · simp_all
  · simp_all
  · simp_all
  · simp_all
  · next hclose _ _ h =>
    rw [h]
    split
    · simp_all
    · split <;> simp_all

lemma readOperand_some_iff {e : Element} :
    readOperand s = .ok (some e, t) ↔ e.isLoopOperand ∧ s.take = .ok (e.token, t) := by
  unfold readOperand
  split
  · simp_all
  · next h => simp [h, e.token_ne_tagClose.symm]
  · next h => simp [h, e.token_ne_endOfInput.symm]
  · next h =>
    rw [h]
    simp only [reduceCtorEq, Except.ok.injEq, Prod.mk.injEq, false_iff]
    rintro ⟨hop, he, -⟩
    exact Element.token_eq_of_isLoopOperand hop _ he.symm
  · next h =>
    rw [h]
    split
    · next herror =>
      simp only [reduceCtorEq, Except.ok.injEq, Prod.mk.injEq, false_iff]
      rintro ⟨-, he, -⟩
      rw [Element.ofToken_eq_ok_iff.2 he] at herror
      simp at herror
    · next element hok =>
      obtain rfl := Element.ofToken_eq_ok_iff.1 hok
      split
      · next hop =>
        simp only [Except.ok.injEq, Prod.mk.injEq, Option.some.injEq,
          Element.token_injective.eq_iff]
        constructor
        · rintro ⟨rfl, rfl⟩
          exact ⟨hop, rfl, rfl⟩
        · rintro ⟨-, rfl, rfl⟩
          exact ⟨rfl, rfl⟩
      · next hop =>
        simp only [reduceCtorEq, Except.ok.injEq, Prod.mk.injEq, Element.token_injective.eq_iff,
          false_iff]
        rintro ⟨he, rfl, -⟩
        exact hop he

lemma requireOperand_eq_ok_iff {fault : LoopFault} {e : Element} :
    requireOperand fault s = .ok (e, t) ↔ e.isLoopOperand ∧ s.take = .ok (e.token, t) := by
  rw [← readOperand_some_iff, requireOperand]
  split <;> simp_all

/-! ## Whole tags -/

lemma readElements_of_token {done : List Element} {e : Element}
    (h : s.take = .ok (e.token, t)) : readElements done s = readElements (e :: done) t := by
  rw [readElements]
  split
  · simp_all
  · simp_all [e.token_ne_tagClose.symm]
  · simp_all [e.token_ne_endOfInput.symm]
  · next h' =>
    rw [h] at h'
    simp only [Except.ok.injEq, Prod.mk.injEq] at h'
    obtain ⟨rfl, rfl⟩ := h'
    split
    · next herror =>
      rw [Element.ofToken_eq_ok_iff.2 rfl] at herror
      simp at herror
    · next hok => rw [Element.token_injective (Element.ofToken_eq_ok_iff.1 hok)]

/-- The elements of an echo tag are read up to the tag closing. -/
lemma readElements_iff {done elements : List Element} :
    (∃ t, readElements done s = .ok (elements, t) ∧ t.setMode .text = u) ↔
      ∃ es, elements = done.reverse ++ es ∧ s.Reads (es.map Element.token ++ [.tagClose]) u := by
  constructor
  · rintro ⟨t, h, rfl⟩
    fun_induction readElements done s with
    | case1 | case3 | case4 => simp at h
    | case2 done s t htake =>
      simp only [Except.ok.injEq, Prod.mk.injEq] at h
      obtain ⟨rfl, rfl⟩ := h
      exact ⟨[], by simp, reads_tagClose_iff.2 ⟨t, htake, rfl⟩⟩
    | case5 done s token v _ _ htake e hok ih =>
      obtain rfl := Element.ofToken_eq_ok_iff.1 hok
      obtain ⟨es, rfl, hes⟩ := ih h
      exact ⟨e :: es, by simp, reads_element_iff.2 ⟨v, htake, hes⟩⟩
  · rintro ⟨es, rfl, h⟩
    induction es generalizing s done with
    | nil =>
      obtain ⟨t, htake, rfl⟩ := reads_tagClose_iff.1 h
      refine ⟨t, ?_, rfl⟩
      rw [readElements]
      split <;> simp_all
    | cons e es ih =>
      obtain ⟨v, htake, hv⟩ := reads_element_iff.1 h
      obtain ⟨t, ht, rfl⟩ := @ih v (e :: done) hv
      refine ⟨t, ?_, rfl⟩
      rw [readElements_of_token htake, ht]
      simp

/-- The opening tag of a loop is read after its name as the grammar has it. -/
lemma readHeader_iff {header : LoopHeader} :
    (∃ t, readHeader s = .ok (header, t) ∧ t.setMode .text = u) ↔
      header.IsGrammatical ∧
        s.Reads (.name header.name :: header.operands.map Element.token ++ [.tagClose]) u := by
  obtain ⟨name, start, stop, step⟩ := header
  simp only [readHeader, bind_eq_ok_iff, Prod.exists, readVariable_eq_ok_iff,
    requireOperand_eq_ok_iff]
  constructor
  · rintro ⟨t, ⟨_, a, ⟨hname, ha⟩, _, b, ⟨hstart, hb⟩, _, c, ⟨hstop, hc⟩, operand, d, hd, h⟩, rfl⟩
    cases operand with
    | none =>
      simp only [Except.ok.injEq, Prod.mk.injEq, LoopHeader.mk.injEq] at h
      obtain ⟨⟨rfl, rfl, rfl, rfl⟩, rfl⟩ := h
      have close := reads_tagClose_iff.2 ⟨d, readOperand_none_iff.1 hd, rfl⟩
      refine ⟨⟨hname, by simp [LoopHeader.operands, hstart, hstop]⟩, reads_name_iff.2 ⟨a, ha, ?_⟩⟩
      exact reads_element_iff.2 ⟨b, hb, reads_element_iff.2 ⟨c, hc, close⟩⟩
    | some operand =>
      simp only [bind_eq_ok_iff, Except.ok.injEq, Prod.mk.injEq, LoopHeader.mk.injEq] at h
      obtain ⟨_, hclose, ⟨rfl, rfl, rfl, rfl⟩, rfl⟩ := h
      obtain ⟨hstep, hd⟩ := readOperand_some_iff.1 hd
      have close := reads_tagClose_iff.2 ⟨_, readClose_eq_ok_iff.1 hclose, rfl⟩
      refine ⟨⟨hname, by simp [LoopHeader.operands, hstart, hstop, hstep]⟩,
        reads_name_iff.2 ⟨a, ha, ?_⟩⟩
      exact reads_element_iff.2 ⟨b, hb, reads_element_iff.2 ⟨c, hc,
        reads_element_iff.2 ⟨d, hd, close⟩⟩⟩
  · rintro ⟨⟨hname, hoperands⟩, h⟩
    simp only [LoopHeader.operands, List.forall_mem_cons] at hoperands
    obtain ⟨hstart, hstop, hstep⟩ := hoperands
    obtain ⟨a, ha, h⟩ := reads_name_iff.1 h
    obtain ⟨b, hb, h⟩ := reads_element_iff.1 h
    obtain ⟨c, hc, h⟩ := reads_element_iff.1 h
    cases step with
    | none =>
      obtain ⟨d, hd, rfl⟩ := reads_tagClose_iff.1 h
      exact ⟨d, ⟨_, a, ⟨hname, ha⟩, _, b, ⟨hstart, hb⟩, _, c, ⟨hstop, hc⟩, none, d,
        readOperand_none_iff.2 hd, rfl⟩, rfl⟩
    | some step =>
      obtain ⟨d, hd, h⟩ := reads_element_iff.1 h
      obtain ⟨t, ht, rfl⟩ := reads_tagClose_iff.1 h
      refine ⟨t, ⟨_, a, ⟨hname, ha⟩, _, b, ⟨hstart, hb⟩, _, c, ⟨hstop, hc⟩, some step, d,
        readOperand_some_iff.2 ⟨hstep step (by simp), hd⟩, ?_⟩, rfl⟩
      exact bind_eq_ok_iff.2 ⟨t, readClose_eq_ok_iff.2 ht, rfl⟩

/-- The reader of tags takes what spells a tag and its closing, and nothing else. -/
theorem read_iff {tag : Tag} :
    (∃ t, read s = .ok (tag, t) ∧ t.setMode .text = u) ↔
      ∃ ts, tag.Spelling ts ∧ s.Reads (ts ++ [.tagClose]) u := by
  constructor
  · rintro ⟨t, h, rfl⟩
    unfold read at h
    split at h
    · simp at h
    · next word v hv =>
      split at h
      · next hword =>
        obtain ⟨⟨elements, w⟩, helements, h⟩ := bind_eq_ok_iff.1 h
        simp only [Except.ok.injEq, Prod.mk.injEq] at h
        obtain ⟨rfl, rfl⟩ := h
        subst hword
        obtain ⟨es, rfl, hes⟩ := readElements_iff.1 ⟨w, helements, rfl⟩
        exact ⟨_, .echo elements, reads_name_iff.2 ⟨v, hv, hes⟩⟩
      split at h
      · next hword =>
        obtain ⟨⟨header, w⟩, hheader, h⟩ := bind_eq_ok_iff.1 h
        simp only [Except.ok.injEq, Prod.mk.injEq] at h
        obtain ⟨rfl, rfl⟩ := h
        obtain ⟨hwf, hreads⟩ := readHeader_iff.1 ⟨w, hheader, rfl⟩
        exact ⟨_, .loopStart hword hwf, reads_name_iff.2 ⟨v, hv, hreads⟩⟩
      split at h
      · next hword =>
        obtain ⟨w, hclose, h⟩ := bind_eq_ok_iff.1 h
        simp only [Except.ok.injEq, Prod.mk.injEq] at h
        obtain ⟨rfl, rfl⟩ := h
        have close := reads_tagClose_iff.2 ⟨_, readClose_eq_ok_iff.1 hclose, rfl⟩
        exact ⟨_, .loopEnd hword, reads_name_iff.2 ⟨v, hv, close⟩⟩
      · simp at h
    · simp at h
  · rintro ⟨ts, htag, h⟩
    cases htag with
    | echo elements =>
      obtain ⟨v, hv, h⟩ := reads_name_iff.1 h
      obtain ⟨t, ht, rfl⟩ := (@readElements_iff _ _ [] _).2 ⟨elements, rfl, h⟩
      refine ⟨t, ?_, rfl⟩
      simp [read, hv, ht, bind, Except.bind]
    | @loopStart word header hword hwf =>
      obtain ⟨v, hv, h⟩ := reads_name_iff.1 h
      obtain ⟨t, ht, rfl⟩ := readHeader_iff.2 ⟨hwf, h⟩
      refine ⟨t, ?_, rfl⟩
      have hne := ne_equals hword (by decide)
      simp [read, hv, hne, hword, ht, bind, Except.bind]
    | @loopEnd word hword =>
      obtain ⟨v, hv, h⟩ := reads_name_iff.1 h
      obtain ⟨t, ht, rfl⟩ := reads_tagClose_iff.1 h
      refine ⟨t, ?_, rfl⟩
      have hne := ne_equals hword (by decide)
      simp [read, hv, hne, hword, readClose_eq_ok_iff.2 ht, bind, Except.bind]

/-! ## Tags in pages -/

variable {v w : Scanner} {tag : Tag}

/-- The reader of a page gets through a tag that is spelled there. -/
lemma exists_read_of_spelling {spelled ts : List Token} (htag : tag.Spelling spelled)
    (h : s.Reads (.tagOpen :: (spelled ++ .tagClose :: ts)) u) :
    ∃ v w, s.take = .ok (.tagOpen, v) ∧ read (v.setMode .tag) = .ok (tag, w) ∧
      (w.setMode .text).Reads ts u := by
  obtain ⟨v, hv, h⟩ := Reads.cons_iff.1 h
  rw [List.append_cons, Reads.append_iff] at h
  obtain ⟨t, ht, h⟩ := h
  obtain ⟨w, hw, rfl⟩ := read_iff.2 ⟨spelled, htag, ht⟩
  exact ⟨v, w, hv, hw, h⟩

/-- Where the reader of a page gets through a tag, it is spelled. -/
lemma exists_spelling_of_read (hv : s.take = .ok (.tagOpen, v))
    (hw : read (v.setMode .tag) = .ok (tag, w)) :
    ∃ spelled, tag.Spelling spelled ∧ ∀ {ts u}, (w.setMode .text).Reads ts u →
      s.Reads (.tagOpen :: (spelled ++ .tagClose :: ts)) u := by
  obtain ⟨spelled, htag, h⟩ := read_iff.1 ⟨w, hw, rfl⟩
  refine ⟨spelled, htag, fun {ts u} hts => Reads.cons_iff.2 ⟨v, hv, ?_⟩⟩
  rw [List.append_cons]
  exact h.trans hts

end Tag

end PageScript
