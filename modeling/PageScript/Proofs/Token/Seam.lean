import PageScript.Proofs.Token.Lookahead
/-!
# Pages that go on

What a scanner reads of a page, it reads of every page that begins with it, as long as the last
token does not touch the end.  A tag opening and a tag closing are complete in themselves; every
other token might go on with what is put behind the page.  A run of text does: it goes on into what
is put behind it, up to the first tag there.
-/

namespace PageScript

variable {input rest more : List Char}

/-! ## Runs of text -/

namespace Scan

variable {done run : List Char}

/-- A character of a run of text stands for itself also if the page goes on, unless it is the last
one and opens a tag with what is put behind it. -/
lemma text_cons_append {c : Char} (hslash : c ≠ '\\')
    (hopen : ∀ tail, c = '\x7b' → input ≠ '$' :: tail)
    (hseam : input = [] → c = '\x7b' → more.head? ≠ some '$') :
    text done (c :: input ++ more) = text (c :: done) (input ++ more) := by
  refine text_cons hslash fun hc => ?_
  cases input with
  | nil => exact hseam rfl hc
  | cons d tail =>
    rintro hd
    obtain rfl : d = '$' := by simpa using hd
    exact hopen tail hc rfl

/-- A run of text that ends with the page goes on with what is put behind it, unless that makes a
tag opening of the last character. -/
lemma text_append_of_nil (h : text done input = .ok (run, []))
    (hseam : ¬ (input.getLast? = some '\x7b' ∧ more.head? = some '$')) :
    text done (input ++ more) = text run.reverse more := by
  fun_induction text done input with
  | case1 done =>
    simp only [Except.ok.injEq, Prod.mk.injEq, and_true] at h
    rw [← h, List.reverse_reverse, List.nil_append]
  | case2 done r => simp at h
  | case3 done r ih | case4 done r ih =>
    refine ih h fun hr => hseam ⟨?_, hr.2⟩
    cases r with
    | nil => simp at hr
    | cons d r => simpa using hr.1
  | case5 => simp at h
  | case6 done c r hopen _ _ hslash ih =>
    rw [text_cons_append hslash (fun tail hc hr => hopen tail hc hr), ih h]
    · refine fun hr => hseam ⟨?_, hr.2⟩
      cases r with
      | nil => simp at hr
      | cons d r => simpa using hr.1
    · rintro rfl rfl hmore
      exact hseam ⟨rfl, hmore⟩

/-- What was read of a run of text before stands in front of what is read. -/
lemma text_append_done (before done input : List Char) :
    text (done ++ before) input = (text done input).map fun p => (before.reverse ++ p.1, p.2) := by
  fun_induction text done input with
  | case1 done => simp [text, Except.map]
  | case2 done r => simp [text, Except.map]
  | case3 done r ih | case4 done r ih => exact ih
  | case5 => simp_all [text, Except.map]
  | case6 done c r hopen _ _ hslash ih =>
    rw [text_cons hslash, ← List.cons_append, ih]
    intro hc hr
    obtain ⟨tail, rfl⟩ := List.head?_eq_some_iff.1 hr
    exact hopen tail hc rfl

end Scan

/-! ## Runs of tokens -/

/-- A run of tokens that leaves the end of the page unread is read also if the page goes on,
provided that it ends with a tag: a tag closing is complete in itself. -/
theorem Scanner.Reads.append_page {s t u : Scanner} {ts : List Token} (h : s.Reads ts t)
    (hu : u.StandsAt s.mode (s.rest ++ more)) (hends : .endOfInput ∉ ts)
    (hlast : more = [] ∨ ∀ a ∈ ts.getLast?, a = .tagClose) :
    ∃ v, u.Reads ts v ∧ v.StandsAt t.mode (t.rest ++ more) := by
  obtain ⟨chars, hchars, hreads⟩ := h.exists_chars hends
  rw [hchars, List.append_assoc] at hu
  refine hreads (fun a ha => ?_) hu
  rcases hlast with rfl | hlast
  · rw [List.append_nil]
    exact h.admits_rest a ha
  · obtain rfl := hlast a ha
    trivial

end PageScript
