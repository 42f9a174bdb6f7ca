import PageScript.Proofs.Document.Tags
/-!
# The pages that are accepted

The reader works through a page from left to right, with the open loops on a stack, and changes the
rules of its scanner as it goes.  What it accepts is described without any of that: a page is read
as a document exactly if its tokens up to the end of the page, under the rules that its tags put in
force, derive that document.

For the one direction, the reader takes the tokens of a derivation and puts its nodes after the
ones it has.  For the other, what it reads from some place on is what the open loops still
demand there.
-/

namespace PageScript

namespace Document

open Scanner

variable {loops : List OpenLoop} {done : List Node} {s t u : Scanner} {d : Document}

/-! ## Steps of the reader -/

lemma readFrom_endOfInput (h : s.take = .ok (.endOfInput, t)) :
    readFrom [] done s = .ok done.reverse := by
  rw [readFrom]
  split <;> simp_all

lemma readFrom_text {run : String} (h : s.take = .ok (.text run, t)) :
    readFrom loops done s = readFrom loops (.text run :: done) t := by
  rw [readFrom]
  split <;> simp_all

lemma readFrom_echo {elements : List Element} (h : s.take = .ok (.tagOpen, t))
    (htag : Tag.read (t.setMode .tag) = .ok (.echo elements, u)) :
    readFrom loops done s = readFrom loops (.echo elements :: done) (u.setMode .text) := by
  rw [readFrom]
  split <;> simp_all
  split <;> simp_all

lemma readFrom_loopStart {header : LoopHeader} (h : s.take = .ok (.tagOpen, t))
    (htag : Tag.read (t.setMode .tag) = .ok (.loopStart header, u)) :
    readFrom loops done s = readFrom ((header, done) :: loops) [] (u.setMode .text) := by
  rw [readFrom]
  split <;> simp_all
  split <;> simp_all

lemma readFrom_loopEnd {header : LoopHeader} {before : List Node}
    (h : s.take = .ok (.tagOpen, t)) (htag : Tag.read (t.setMode .tag) = .ok (.loopEnd, u)) :
    readFrom ((header, before) :: loops) done s =
      readFrom loops (.loop header done.reverse :: before) (u.setMode .text) := by
  rw [readFrom]
  split <;> simp_all
  split <;> simp_all

lemma reads_text_iff {run : String} {ts : List Token} :
    s.Reads (.text run :: ts) u ↔ ∃ t, s.take = .ok (.text run, t) ∧ t.Reads ts u :=
  Reads.cons_iff_of_ne (by simp) (by simp)

/-! ## The reader takes what is derived -/

/-- The reader takes the tokens of a derivation, and puts its nodes after the ones it has. -/
theorem readFrom_of_derivation {ts : List Token} (a : Derivation ts d) (h : s.Reads ts t) :
    readFrom loops done s = readFrom loops (d.reverse ++ done) t := by
  induction a generalizing loops done s t with
  | nil =>
    obtain rfl := Reads.nil_iff.1 h
    rfl
  | text run a ih =>
    obtain ⟨v, hv, h⟩ := reads_text_iff.1 h
    rw [readFrom_text hv, ih h]
    simp
  | echo spelling a ih =>
    obtain ⟨v, w, hv, hw, h⟩ := Tag.exists_read_of_spelling spelling h
    rw [readFrom_echo hv hw, ih h]
    simp
  | loop start inner stop a ihinner ih =>
    obtain ⟨v, w, hv, hw, h⟩ := Tag.exists_read_of_spelling start h
    obtain ⟨x, hinner, h⟩ := Reads.append_iff.1 h
    obtain ⟨y, z, hy, hz, h⟩ := Tag.exists_read_of_spelling stop h
    rw [readFrom_loopStart hv hw, ihinner hinner, readFrom_loopEnd hy hz, ih h]
    simp

/-! ## What the open loops demand -/

/-- `Completes loops done ts d` holds if the tokens `ts` bring a reader with the open loops `loops`
and the nodes `done` inside the innermost one to the document `d`. -/
inductive Completes : List OpenLoop → List Node → List Token → Document → Prop
  /-- With no open loop, only the rest of the page is to come. -/
  | page {done : List Node} {ts : List Token} {d : Document} (rest : Derivation ts d) :
      Completes [] done ts (done.reverse ++ d)
  /-- An open loop demands the rest of its body and its end tag; then it is a node. -/
  | loop {loops : List OpenLoop} {header : LoopHeader} {before done : List Node}
      {inside closing ts : List Token} {body d : Document} (inner : Derivation inside body)
      (stop : Tag.loopEnd.Spelling closing)
      (outer : Completes loops (.loop header (done.reverse ++ body) :: before) ts d) :
      Completes ((header, before) :: loops) done
        (inside ++ .tagOpen :: (closing ++ .tagClose :: ts)) d

/-- A node that a reader has may be spelled in front of what is to come. -/
lemma Completes.cons {node : Node} {front ts : List Token}
    (hnode : ∀ {ts d}, Derivation ts d → Nonempty (Derivation (front ++ ts) (node :: d)))
    (h : Completes loops (node :: done) ts d) : Completes loops done (front ++ ts) d := by
  generalize hdone : node :: done = nodes at h
  cases h with
  | page rest =>
    subst hdone
    obtain ⟨whole⟩ := hnode rest
    rw [List.reverse_cons, List.append_assoc]
    exact .page whole
  | loop inner stop outer =>
    subst hdone
    obtain ⟨whole⟩ := hnode inner
    rw [List.reverse_cons, List.append_assoc] at outer
    rw [← List.append_assoc]
    exact .loop whole stop outer

/-- What a reader takes from some place on is what its open loops demand there. -/
theorem completes_of_readFrom (h : readFrom loops done s = .ok d) :
    ∃ ts u, s.Reads (ts ++ [.endOfInput]) u ∧ Completes loops done ts d := by
  fun_induction readFrom loops done s with
  | case1 | case3 | case5 | case8 | case10 => simp at h
  | case2 loops done s t htake hloops =>
    obtain rfl := List.isEmpty_iff.1 hloops
    obtain rfl := Except.ok.inj h
    refine ⟨[], _, .cons htake (.nil _), ?_⟩
    simpa using Completes.page .nil
  | case4 loops done s run t htake ih =>
    obtain ⟨ts, u, hts, hcompletes⟩ := ih h
    refine ⟨[.text run] ++ ts, u, reads_text_iff.2 ⟨t, htake, hts⟩, ?_⟩
    exact hcompletes.cons fun a => ⟨.text run a⟩
  | case6 loops done s t htake elements v hread ih =>
    obtain ⟨spelled, htag, hreads⟩ := Tag.exists_spelling_of_read htake hread
    obtain ⟨ts, u, hts, hcompletes⟩ := ih h
    refine ⟨.tagOpen :: (spelled ++ [.tagClose]) ++ ts, u, by simpa using hreads hts, ?_⟩
    exact hcompletes.cons fun a => ⟨by simpa using Derivation.echo htag a⟩
  | case7 loops done s t htake header v hread ih =>
    obtain ⟨opening, hstart, hreads⟩ := Tag.exists_spelling_of_read htake hread
    obtain ⟨ts, u, hts, hcompletes⟩ := ih h
    cases hcompletes with
    | @loop _ _ _ _ inside closing ts body _ inner stop outer =>
      refine ⟨.tagOpen :: (opening ++ .tagClose :: (inside ++ .tagOpen ::
        (closing ++ [.tagClose]))) ++ ts, u, by simpa using hreads hts, ?_⟩
      exact outer.cons fun a => ⟨by simpa using Derivation.loop hstart inner stop a⟩
  | case9 done s t htake v hread header before loops ih =>
    simp only [List.unattach_reverse, List.unattach_attach] at ih
    obtain ⟨closing, hstop, hreads⟩ := Tag.exists_spelling_of_read htake hread
    obtain ⟨ts, u, hts, hcompletes⟩ := ih h
    refine ⟨.tagOpen :: (closing ++ .tagClose :: ts), u, by simpa using hreads hts, ?_⟩
    exact .loop .nil hstop (by simpa using hcompletes)

end Document

/-! ## Derivations of pages -/

/-- A derivation of a document from a page: its tokens can be read up to its end, and those before
the end derive the document. -/
structure PageDerivation (page : List Char) (d : Document) where
  /-- The tokens before the end of the page. -/
  tokens : List Token
  /-- They are all there is, and no failure ends them. -/
  stream : pageTokens page = (tokens ++ [.endOfInput], none)
  /-- They derive the document. -/
  derivation : Derivation tokens d

/-- The reader accepts exactly the grammar, and a page has at most one derivation. -/
theorem read_eq_ok_iff_derivation (page : List Char) :
    (∀ d, Document.read page = .ok d ↔ Nonempty (PageDerivation page d)) ∧
      Subsingleton (Σ d, PageDerivation page d) := by
  constructor
  · intro d
    constructor
    · intro h
      obtain ⟨ts, u, hts, hcompletes⟩ := Document.completes_of_readFrom h
      cases hcompletes with
      | page rest => exact ⟨⟨ts, Scanner.tokens_eq_iff.2 ⟨u, hts⟩, rest⟩⟩
    · rintro ⟨ts, hstream, a⟩
      obtain ⟨u, hts⟩ := Scanner.tokens_eq_iff.1 hstream
      obtain ⟨t, ht, hend⟩ := Scanner.Reads.append_iff.1 hts
      obtain ⟨v, hv, -⟩ := Scanner.Reads.cons_iff.1 hend
      rw [Document.read, Document.readFrom_of_derivation a ht, Document.readFrom_endOfInput hv]
      simp
  · constructor
    rintro ⟨d, ts, hstream, a⟩ ⟨d', ts', hstream', a'⟩
    have htokens : ts = ts' := by simpa using hstream.symm.trans hstream'
    subst htokens
    have hsame := (subsingleton_derivation ts).elim ⟨d, a⟩ ⟨d', a'⟩
    cases hsame
    rfl

end PageScript
