import PageScript.Proofs.Token.Seam
/-!
# Pages one behind the other

Two pages that are documents make one when they are put one behind the other, unless a brace at
the end of the first and a dollar sign at the beginning of the second open a tag.  The nodes
of the whole are those of its parts; only where the first ends in a run of text and the second
begins with one do the two runs become one.

The reader reaches the seam outside tags and with no open loop.  If the first page ends with a tag,
the second is read as if it stood alone.  Otherwise the reader has not come to the end of a run of
text there, and what it takes goes on into the second page.
-/

namespace PageScript

namespace Scanner

variable {s t u : Scanner} {ts : List Token} {run : String} {input rest more : List Char}

/-! ## Reading outside tags -/

/-- The end of the page comes last. -/
lemma Reads.endOfInput_notMem (h : s.Reads (ts ++ [.endOfInput]) t) : .endOfInput ∉ ts := by
  induction ts generalizing s with
  | nil => simp
  | cons token ts ih =>
    obtain ⟨u, first, rest⟩ := cons_iff.1 h
    have hne : token ≠ .endOfInput := by
      cases ts with
      | nil => exact ne_endOfInput first rest
      | cons => exact ne_endOfInput first rest
    simpa [eq_comm, hne] using ih rest

/-- Outside tags only the end of the page is read as that. -/
lemma rest_eq_nil_of_take (h : s.take = .ok (.endOfInput, t)) (hmode : s.mode = .text) :
    s.rest = [] := by
  cases takes_of_take h with
  | endOfPage _ hrest => exact hrest
  | inTag htag => cases hmode.symm.trans htag

/-- Outside tags a run of text is read from the characters ahead. -/
lemma text_of_take (h : s.take = .ok (.text run, t)) (hmode : s.mode = .text) :
    run ≠ "" ∧ Scan.text [] s.rest = .ok (run.toList, t.rest) := by
  cases takes_of_take h with
  | text _ hrun htext => exact ⟨hrun, htext⟩
  | inTag htag => cases hmode.symm.trans htag

/-- A run of text that reaches the end of the page goes on with the text behind the seam. -/
lemma StandsAt.take_run_append {front : List Char} (hu : u.StandsAt .text (s.rest ++ more))
    (h : s.take = .ok (.text run, t)) (hmode : s.mode = .text) (ht : t.rest = [])
    (hseam : ¬ (s.rest.getLast? = some '\x7b' ∧ more.head? = some '$'))
    (hmore : Scan.text [] more = .ok (front, rest)) :
    ∃ v, u.take = .ok (.text (run ++ String.ofList front), v) ∧ v.StandsAt .text rest := by
  obtain ⟨hrun, htext⟩ := text_of_take h hmode
  rw [ht] at htext
  have hdone := Scan.text_append_done run.toList.reverse [] more
  rw [List.nil_append, hmore] at hdone
  refine hu.take_run ?_ (by simp [hrun])
  rw [Scan.text_append_of_nil htext hseam, hdone]
  simp [Except.map]

end Scanner

open Scanner

/-! ## How a derivation ends -/

/-- Tokens end with a tag if those behind one of their tags do. -/
lemma tagClose_of_getLast?_append {front ts : List Token}
    (h : ∀ t ∈ ts.getLast?, t = .tagClose) :
    ∀ t ∈ (front ++ .tagClose :: ts).getLast?, t = .tagClose := by
  intro t ht
  rw [List.getLast?_append, List.getLast?_cons] at ht
  cases hts : ts.getLast? with
  | none => simpa [hts, eq_comm] using ht
  | some last =>
    obtain rfl : last = t := by simpa [hts] using ht
    exact h _ hts

/-- Nodes end in no run of text if those behind a tag do not. -/
lemma text_notMem_getLast?_cons {node : Node} {d : Document} (hnode : ∀ run, node ≠ .text run)
    (h : ∀ run, Node.text run ∉ d.getLast?) (run : String) :
    Node.text run ∉ (node :: d).getLast? := by
  intro hrun
  rw [List.getLast?_cons] at hrun
  cases hd : d.getLast? with
  | none => exact hnode run (by simpa [hd] using hrun)
  | some last => exact h run (by simpa [hd] using hrun)

/-- A document ends with a tag, or in a run of text. -/
lemma Derivation.getLast?_eq_or {ts : List Token} {d : Document} (a : Derivation ts d) :
    ((∀ t ∈ ts.getLast?, t = .tagClose) ∧ ∀ run, Node.text run ∉ d.getLast?) ∨
      ∃ us run d', ts = us ++ [.text run] ∧ d = d' ++ [.text run] ∧
        Nonempty (Derivation us d') := by
  induction a with
  | nil => simp
  | @text ts d run rest ih =>
    obtain ⟨hts, hd⟩ | ⟨us, run', d', rfl, rfl, ⟨b⟩⟩ := ih
    · cases rest with
      | nil => exact .inr ⟨[], run, [], rfl, rfl, ⟨.nil⟩⟩
      | text | echo | loop => exact .inl ⟨by simpa using hts, by simpa using hd⟩
    · exact .inr ⟨.text run :: us, run', .text run :: d', rfl, rfl, ⟨.text run b⟩⟩
  | @echo es tag ts d spelling rest ih =>
    obtain ⟨hts, hd⟩ | ⟨us, run', d', rfl, rfl, ⟨b⟩⟩ := ih
    · refine .inl ⟨?_, text_notMem_getLast?_cons (by simp) hd⟩
      exact @tagClose_of_getLast?_append (.tagOpen :: tag) ts hts
    · exact .inr ⟨.tagOpen :: (tag ++ .tagClose :: us), run', .echo es :: d', by simp, rfl,
        ⟨.echo spelling b⟩⟩
  | @loop header opening inside closing ts body d start inner stop rest _ ih =>
    obtain ⟨hts, hd⟩ | ⟨us, run', d', rfl, rfl, ⟨b⟩⟩ := ih
    · refine .inl ⟨?_, text_notMem_getLast?_cons (by simp) hd⟩
      have := @tagClose_of_getLast?_append
        (.tagOpen :: (opening ++ .tagClose :: (inside ++ .tagOpen :: closing))) ts hts
      simpa using this
    · exact .inr ⟨.tagOpen :: (opening ++ .tagClose :: (inside ++ .tagOpen :: (closing ++
        .tagClose :: us))), run', .loop header body :: d', by simp, rfl, ⟨.loop start inner stop b⟩⟩

/-- A document leaves the reader outside tags. -/
lemma Derivation.mode_eq_text {ts : List Token} {d : Document} {s t : Scanner}
    (a : Derivation ts d) (h : s.Reads ts t) (hmode : s.mode = .text) : t.mode = .text := by
  refine h.mode_eq_text hmode ?_
  obtain ⟨hlast, -⟩ | ⟨us, run, d', rfl, -, -⟩ := a.getLast?_eq_or
  · exact fun a ha => .inl (hlast a ha)
  · simp [Token.isText]

namespace Document

variable {d e : Document} {ts : List Token} {s t v : Scanner} {page first second : List Char}
  {done : List Node}

/-! ## Documents behind others -/

/-- The tokens of a page that is a document are read up to its end. -/
lemma exists_reads_of_read (h : read page = .ok d) :
    ∃ ts t, Nonempty (Derivation ts d) ∧ (ofSource page).Reads ts t ∧ t.rest = [] ∧
      .endOfInput ∉ ts := by
  obtain ⟨ts, u, hts, hcompletes⟩ := completes_of_readFrom h
  cases hcompletes with
  | page a =>
    obtain ⟨t, ht, hend⟩ := Reads.append_iff.1 hts
    obtain ⟨w, hw, -⟩ := Reads.cons_iff.1 hend
    exact ⟨ts, t, ⟨a⟩, ht, rest_eq_nil_of_take hw (a.mode_eq_text ht rfl), hts.endOfInput_notMem⟩

/-- A reader takes the end of a page wherever it stands in front of it. -/
lemma readFrom_of_reads (a : Derivation ts d) (h : s.Reads ts t) (hmode : s.mode = .text)
    (hrest : t.rest = []) (hends : .endOfInput ∉ ts) (hv : v.StandsAt .text s.rest) :
    readFrom [] done v = .ok (done.reverse ++ d) := by
  have hv' : v.StandsAt s.mode (s.rest ++ []) := by rwa [hmode, List.append_nil]
  obtain ⟨w, hw, hstands⟩ := h.append_page hv' hends (.inl rfl)
  rw [a.mode_eq_text h hmode, hrest] at hstands
  rw [readFrom_of_derivation a hw, readFrom_endOfInput (take_endOfInput hstands)]
  simp

/-- The nodes of two documents in a row.  Where the first ends in a run of text and the second
begins with one, they are one run. -/
def join (d e : Document) : Document :=
  match d.getLast?, e with
  | some (.text run), .text run' :: e => d.dropLast ++ .text (run ++ run') :: e
  | _, e => d ++ e

lemma join_of_getLast?_ne (h : ∀ run, Node.text run ∉ d.getLast?) : join d e = d ++ e := by
  unfold join
  split
  · next run _ hlast => exact absurd hlast (h _)
  · rfl

lemma join_of_head?_ne (h : ∀ run, Node.text run ∉ e.head?) : join d e = d ++ e := by
  unfold join
  split
  · next run' _ _ => exact absurd rfl (h run')
  · rfl

lemma join_append_text (d e : Document) (run run' : String) :
    join (d ++ [.text run]) (.text run' :: e) = d ++ .text (run ++ run') :: e := by
  simp [join]

/-- `Begins page e front rest e'` holds if a page that is read as `e` begins with the text `front`,
which a run before it takes, and goes on with `rest`, which is read as `e'`. -/
structure Begins (page : List Char) (e : Document) (front rest : List Char) (e' : Document) :
    Prop where
  /-- The text comes first. -/
  text_eq : Scan.text [] page = .ok (front, rest)
  /-- It is a run of text of the document, unless the document begins with none. -/
  eq_or : e = .text (String.ofList front) :: e' ∨
    front = [] ∧ e' = e ∧ ∀ run, Node.text run ∉ e.head?
  /-- The rest is read wherever it stands. -/
  readFrom_eq : ∀ v done, v.StandsAt .text rest → readFrom [] done v = .ok (done.reverse ++ e')

/-- A page that begins with a tag opening begins with no text. -/
lemma Begins.of_tagOpen {page tail : List Char} (h : page = '\x7b' :: '$' :: tail)
    (hhead : ∀ run, Node.text run ∉ e.head?)
    (hreads : ∀ v done, v.StandsAt .text page → readFrom [] done v = .ok (done.reverse ++ e)) :
    Begins page e [] page e :=
  ⟨by rw [h, Scan.text]; rfl, .inr ⟨rfl, rfl, hhead⟩, hreads⟩

/-- A page that is a document begins with some text, or with none. -/
lemma exists_begins_of_read (h : read page = .ok e) :
    ∃ front rest e', Begins page e front rest e' := by
  obtain ⟨ts, t, ⟨a⟩, ht, hrest, hends⟩ := exists_reads_of_read h
  have hwhole (v : Scanner) (done : List Node) (hv : v.StandsAt .text page) :
      readFrom [] done v = .ok (done.reverse ++ e) :=
    readFrom_of_reads a ht rfl hrest hends hv
  have hopen {us : List Token} (hreads : (ofSource page).Reads (.tagOpen :: us) t) :
      ∃ tail, page = '\x7b' :: '$' :: tail := by
    obtain ⟨u, first, -⟩ := Reads.cons_iff.1 hreads
    cases takes_of_take first with
    | tagOpen _ hrest => exact ⟨_, hrest⟩
    | inTag htag => cases htag
  cases a with
  | nil =>
    obtain rfl := Reads.nil_iff.1 ht
    obtain rfl : page = [] := hrest
    exact ⟨[], [], [], rfl, .inr ⟨rfl, rfl, by simp⟩, hwhole⟩
  | @text ts d run a =>
    obtain ⟨u, first, ht⟩ := reads_text_iff.1 ht
    obtain ⟨-, htext⟩ := text_of_take first rfl
    refine ⟨run.toList, u.rest, d, htext, .inl (by simp), fun v done hv => ?_⟩
    exact readFrom_of_reads a ht (take_mode first) hrest (by simpa using hends) hv
  | echo =>
    obtain ⟨tail, htail⟩ := hopen ht
    exact ⟨[], page, _, .of_tagOpen htail (by simp) hwhole⟩
  | loop =>
    obtain ⟨tail, htail⟩ := hopen ht
    exact ⟨[], page, _, .of_tagOpen htail (by simp) hwhole⟩

/-- Two pages that are documents are one if no tag is opened where they meet. -/
theorem read_append (h : read first = .ok d) (h' : read second = .ok e)
    (hseam : ¬ (first.getLast? = some '\x7b' ∧ second.head? = some '$')) :
    read (first ++ second) = .ok (join d e) := by
  obtain ⟨ts, t, ⟨a⟩, ht, hrest, hends⟩ := exists_reads_of_read h
  have hstart := standsAt_ofSource (first ++ second)
  obtain ⟨hlast, hd⟩ | ⟨us, run, d', rfl, rfl, ⟨b⟩⟩ := a.getLast?_eq_or
  · -- The first page ends with a tag, so the second is read as it is.
    obtain ⟨v, hv, hstands⟩ := ht.append_page hstart hends (.inr hlast)
    rw [hrest, a.mode_eq_text ht rfl] at hstands
    obtain ⟨ts', t', ⟨a'⟩, ht', hrest', hends'⟩ := exists_reads_of_read h'
    rw [read, readFrom_of_derivation a hv, readFrom_of_reads a' ht' rfl hrest' hends' hstands,
      join_of_getLast?_ne hd]
    simp
  · -- The first page ends in a run of text, which takes the text that the second begins with.
    obtain ⟨front, rest, e', hbegins⟩ := exists_begins_of_read h'
    obtain ⟨x, hx, hrun⟩ := Reads.append_iff.1 ht
    obtain ⟨u, htake, hnil⟩ := reads_text_iff.1 hrun
    obtain rfl := Reads.nil_iff.1 hnil
    have hus : ∀ a ∈ us.getLast?, a = .tagClose := by
      obtain ⟨hus, -⟩ | ⟨us', run', d'', rfl, -, -⟩ := b.getLast?_eq_or
      · exact hus
      · -- No run of text follows another.
        have hchain := ht.areWellFormed.isChain
        simp [List.isChain_append, Token.isText] at hchain
    obtain ⟨v, hv, hstands⟩ := hx.append_page hstart (by simpa using hends) (.inr hus)
    rw [b.mode_eq_text hx rfl] at hstands
    have hseam' : ¬ (x.rest.getLast? = some '\x7b' ∧ second.head? = some '$') := by
      rintro ⟨hx', hsecond⟩
      obtain ⟨before, hbefore⟩ := hx.suffix
      refine hseam ⟨?_, hsecond⟩
      rw [show first = before ++ x.rest from hbefore.symm, List.getLast?_append, hx']
      rfl
    obtain ⟨w, hw, hstands'⟩ :=
      hstands.take_run_append htake (b.mode_eq_text hx rfl) hrest hseam' hbegins.text_eq
    rw [read, readFrom_of_derivation b hv, readFrom_text hw, hbegins.readFrom_eq w _ hstands']
    rcases hbegins.eq_or with rfl | ⟨rfl, rfl, hhead⟩
    · rw [join_append_text]
      simp
    · rw [join_of_head?_ne hhead]
      simp

end Document

end PageScript
