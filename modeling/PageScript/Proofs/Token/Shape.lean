import PageScript.Proofs.Token.Escape
import PageScript.Proofs.Token.Reads
import Mathlib.Data.List.Chain
/-!
# What the tokens of a page look like

A scanner makes sure of the tokens it reads: a run of text has characters, a name is one, an
operator is one of the five.  And a run of text goes on up to a tag or to the end of the page, so no
run comes right after another.

All of this, and what later modules say of single tokens, is read off one list of what a scanner can
come upon (`Takes`).
-/

namespace PageScript

namespace Token

/-- Whether a scanner can read the token: what it carries is of its kind. -/
def IsWellFormed : Token → Prop
  | .text s => s ≠ ""
  | .name s => s = "=" ∨ Text.isName s.toList
  | .function s => Text.isName s.toList
  | .operator c => Scan.isOperator c
  | .tagOpen | .tagClose | .number _ | .string _ | .endOfInput => True

/-- Whether a token is a run of text. -/
def isText : Token → Bool
  | .text _ => true
  | .tagOpen | .tagClose | .name _ | .number _ | .string _ | .operator _ | .function _
  | .endOfInput => false

/-- Whether a scanner can read a list of tokens one after another. -/
structure AreWellFormed (ts : List Token) : Prop where
  /-- Each can be read. -/
  forall_mem : ∀ t ∈ ts, t.IsWellFormed
  /-- No run of text follows another. -/
  isChain : ts.IsChain fun a b => a.isText → ¬ b.isText

lemma AreWellFormed.of_isInfix {ts us : List Token} (h : AreWellFormed us) (hts : ts <:+: us) :
    AreWellFormed ts :=
  ⟨fun t ht => h.forall_mem t (hts.subset ht), List.IsChain.infix h.isChain hts⟩

end Token

/-! ## Runs of text -/

namespace Scan

/-- A run of text has the characters already read, and ends at a tag or at the end of the page. -/
lemma text_eq_ok {done input run rest : List Char} (h : text done input = .ok (run, rest)) :
    done.length ≤ run.length ∧ EndsText rest := by
  fun_induction text done input with
  | case1 done =>
    simp only [Except.ok.injEq, Prod.mk.injEq] at h
    obtain ⟨rfl, rfl⟩ := h
    exact ⟨by simp, .nil⟩
  | case2 done r =>
    simp only [Except.ok.injEq, Prod.mk.injEq] at h
    obtain ⟨rfl, rfl⟩ := h
    exact ⟨by simp, .tagOpen r⟩
  | case3 done r ih | case4 done r ih =>
    have := ih h
    exact ⟨Nat.le_of_succ_le this.1, this.2⟩
  | case5 => simp at h
  | case6 done c r _ _ _ _ ih =>
    have := ih h
    exact ⟨Nat.le_of_succ_le this.1, this.2⟩

/-- A run of text that does not begin at a tag or at the end has a character. -/
lemma run_ne_nil {input run rest : List Char} (h : text [] input = .ok (run, rest))
    (hne : input ≠ []) (hopen : ∀ r, input ≠ '\x7b' :: '$' :: r) : run ≠ [] := by
  have first {c : Char} {r : List Char} (hr : text [c] r = .ok (run, rest)) : run ≠ [] := by
    rintro rfl
    simpa using (text_eq_ok hr).1
  unfold text at h
  split at h
  · exact absurd rfl hne
  · exact absurd rfl (hopen _)
  · exact first h
  · exact first h
  · simp at h
  · exact first h

end Scan

/-! ## Single tokens -/

namespace Scanner

variable {s t u : Scanner} {token : Token} {input rest : List Char}

/-- Outside tags a scanner reads a tag opening or a run of text with a character in it. -/
lemma readText_eq_ok (h : s.readText input = (.ok token, rest)) (hne : input ≠ []) :
    (token = .tagOpen ∧ input = '\x7b' :: '$' :: rest) ∨
      ∃ run, run ≠ "" ∧ token = .text run ∧ Scan.text [] input = .ok (run.toList, rest) := by
  unfold readText at h
  split at h
  · obtain ⟨⟨⟩, rfl⟩ := Prod.mk.inj h
    exact .inl ⟨rfl, rfl⟩
  · next hopen =>
    split at h
    · next htext =>
      obtain ⟨⟨⟩, rfl⟩ := Prod.mk.inj h
      refine .inr ⟨_, ?_, rfl, by rw [htext, String.toList_ofList]⟩
      simpa using Scan.run_ne_nil htext hne hopen
    · cases (Prod.mk.inj h).1

/-- Outside tags nothing fails but a backslash that escapes nothing. -/
lemma readText_eq_error {e : LexError} (h : s.readText input = (.error e, rest)) :
    ∃ place, Scan.text [] input = .error place ∧
      e = .invalidEscape place.tail.head? (s.offsetOf place) := by
  unfold readText at h
  split at h
  · cases (Prod.mk.inj h).1
  split at h
  · cases (Prod.mk.inj h).1
  · next place hplace =>
    obtain ⟨⟨⟩, -⟩ := Prod.mk.inj h
    exact ⟨place, hplace, rfl⟩

/-- `ReadsInTag input token rest` holds if `token` is what a scanner reads inside a tag in front of
`input`, where there is no blank, and `rest` is what it leaves of the page. -/
inductive ReadsInTag : List Char → Token → List Char → Prop
  | endOfInput : ReadsInTag [] .endOfInput []
  | equals (rest : List Char) : ReadsInTag ('=' :: rest) (.name "=") rest
  | name {c : Char} {tail : List Char} (hletter : Text.isLetter c) :
      ReadsInTag (c :: tail) (.name (String.ofList (c :: tail.takeWhile Text.isNameChar)))
        (tail.dropWhile Text.isNameChar)
  | number {c : Char} {tail : List Char} {n : Number}
      (hnumber : Scan.number? (c :: tail.takeWhile Scan.isNumeralChar) = some n) :
      ReadsInTag (c :: tail) (.number n) (tail.dropWhile Scan.isNumeralChar)
  | operator {c : Char} {tail : List Char} (hoperator : Scan.isOperator c) :
      ReadsInTag (c :: tail) (.operator c) tail
  | function {d : Char} {tail : List Char} (hletter : Text.isLetter d) :
      ReadsInTag ('@' :: d :: tail)
        (.function (String.ofList (d :: tail.takeWhile Text.isNameChar)))
        (tail.dropWhile Text.isNameChar)
  | string {tail body rest : List Char} (hbody : Scan.literal [] tail = .ok (body, rest)) :
      ReadsInTag ('"' :: tail) (.string (String.ofList body)) rest
  | tagClose (rest : List Char) : ReadsInTag ('$' :: '\x7d' :: rest) .tagClose rest

lemma readsInTag_of_readTag (h : s.readTag input = (.ok token, rest)) :
    ReadsInTag input token rest := by
  cases input with
  | nil =>
    obtain ⟨⟨⟩, rfl⟩ := Prod.mk.inj h
    exact .endOfInput
  | cons c tail =>
    unfold readTag at h
    dsimp only at h
    split_ifs at h with hequals hletter hnumeral hoperator hfunction hquote hclose
    · obtain ⟨⟨⟩, rfl⟩ := Prod.mk.inj h
      exact hequals ▸ .equals tail
    · obtain ⟨⟨⟩, rfl⟩ := Prod.mk.inj h
      exact .name hletter
    · obtain ⟨htoken, rfl⟩ := Prod.mk.inj h
      split at htoken
      · next hn =>
        obtain rfl := Except.ok.inj htoken
        exact .number hn
      · cases htoken
    · obtain ⟨⟨⟩, rfl⟩ := Prod.mk.inj h
      exact .operator hoperator
    · obtain ⟨⟨⟩, rfl⟩ := Prod.mk.inj h
      obtain ⟨rfl, hhead⟩ := hfunction
      cases tail with
      | nil => cases hhead
      | cons d tail =>
        have hd : Text.isLetter d := hhead
        have hname := Text.isNameChar_of_isLetter hd
        rw [List.takeWhile_cons_of_pos hname, List.dropWhile_cons_of_pos hname]
        exact .function hd
    · subst hquote
      unfold readString at h
      split at h
      · next hbody =>
        obtain ⟨⟨⟩, rfl⟩ := Prod.mk.inj h
        exact .string hbody
      · cases (Prod.mk.inj h).1
      · cases (Prod.mk.inj h).1
    · obtain ⟨⟨⟩, rfl⟩ := Prod.mk.inj h
      obtain ⟨rfl, hhead⟩ := hclose
      obtain ⟨tail, rfl⟩ := List.head?_eq_some_iff.1 hhead
      exact .tagClose tail
    · cases (Prod.mk.inj h).1

/-- A letter and the characters of names behind it are a name. -/
lemma isName_takeWhile {c : Char} {tail : List Char} (hc : Text.isLetter c) :
    Text.isName (c :: tail.takeWhile Text.isNameChar) := by
  simp [Text.isName, hc]

/-- Inside a tag a scanner reads no run of text, and what it reads is of its kind. -/
lemma readTag_eq_ok (h : s.readTag input = (.ok token, rest)) :
    token.IsWellFormed ∧ ¬ token.isText := by
  cases readsInTag_of_readTag h with
  | equals => exact ⟨.inl rfl, by simp [Token.isText]⟩
  | name hletter => exact ⟨.inr (by simpa using isName_takeWhile hletter), by simp [Token.isText]⟩
  | operator hoperator => exact ⟨hoperator, by simp [Token.isText]⟩
  | function hletter =>
    exact ⟨by simpa [Token.IsWellFormed] using isName_takeWhile hletter, by simp [Token.isText]⟩
  | endOfInput | number | string | tagClose => exact ⟨trivial, by simp [Token.isText]⟩

/-- `s.Takes token t` holds if `token` is what the scanner `s` comes upon under the rules of its
mode, and `t` has what is left of the page behind it. -/
inductive Takes (s t : Scanner) : Token → Prop
  | endOfPage (hmode : s.mode = .text) (hrest : s.rest = []) (hend : t.rest = []) :
      Takes s t .endOfInput
  | tagOpen (hmode : s.mode = .text) (hrest : s.rest = '\x7b' :: '$' :: t.rest) : Takes s t .tagOpen
  | text {run : String} (hmode : s.mode = .text) (hrun : run ≠ "")
      (htext : Scan.text [] s.rest = .ok (run.toList, t.rest)) : Takes s t (.text run)
  | inTag {token : Token} (hmode : s.mode = .tag)
      (hread : s.readTag (s.rest.dropWhile Scan.isGap) = (.ok token, t.rest)) : Takes s t token

/-- All that taking a token can come to. -/
lemma takes_of_take (h : s.take = .ok (token, t)) : Takes s t token := by
  obtain ⟨-, hread, -, -⟩ := next_eq_ok (take_eq_ok_iff.1 h)
  unfold read at hread
  split at hread
  · next hmode =>
    split at hread
    · next hrest =>
      obtain ⟨⟨⟩, ht⟩ := Prod.mk.inj hread
      exact .endOfPage hmode (by simpa using hrest) ht.symm
    · next hrest =>
      rcases readText_eq_ok hread (by simpa using hrest) with
        ⟨rfl, hopen⟩ | ⟨run, hrun, rfl, htext⟩
      · exact .tagOpen hmode hopen
      · exact .text hmode hrun htext
  · next hmode => exact .inTag hmode hread

lemma readTag_of_take (h : s.take = .ok (token, t)) (hmode : s.mode = .tag) :
    s.readTag (s.rest.dropWhile Scan.isGap) = (.ok token, t.rest) := by
  cases takes_of_take h with
  | endOfPage htext | tagOpen htext | text htext => cases hmode.symm.trans htext
  | inTag _ hread => exact hread

lemma isWellFormed_of_take (h : s.take = .ok (token, t)) : token.IsWellFormed := by
  cases takes_of_take h with
  | endOfPage | tagOpen => trivial
  | text _ hrun => exact hrun
  | inTag _ hread => exact (readTag_eq_ok hread).1

/-- A run of text is read outside tags, up to a tag or to the end of the page. -/
lemma endsText_of_take (h : s.take = .ok (token, t)) (htoken : token.isText) :
    s.mode = .text ∧ EndsText t.rest := by
  cases takes_of_take h with
  | endOfPage | tagOpen => cases htoken
  | text hmode _ htext => exact ⟨hmode, (Scan.text_eq_ok htext).2⟩
  | inTag _ hread => exact absurd htoken (readTag_eq_ok hread).2

/-- Where a run of text ends, a tag is opened or the page is over. -/
lemma takes_of_endsText (h : s.take = .ok (token, t)) (hmode : s.mode = .text)
    (hends : EndsText s.rest) :
    (token = .endOfInput ∧ s.rest = []) ∨ (token = .tagOpen ∧ s.rest = '\x7b' :: '$' :: t.rest) := by
  cases takes_of_take h with
  | endOfPage _ hrest => exact .inl ⟨rfl, hrest⟩
  | tagOpen _ hrest => exact .inr ⟨rfl, hrest⟩
  | text _ hrun htext =>
    rw [Scan.text_of_endsText hends] at htext
    obtain ⟨hnil, -⟩ := Prod.mk.inj (Except.ok.inj htext)
    exact absurd (by simpa using hnil.symm) hrun
  | inTag htag => cases hmode.symm.trans htag

/-- After a run of text there is a tag, or the end of the page. -/
lemma isText_of_take (hs : s.take = .ok (token, t)) (htoken : token.isText)
    {next : Token} (ht : t.take = .ok (next, u)) : ¬ next.isText := by
  obtain ⟨hmode, hends⟩ := endsText_of_take hs htoken
  rcases takes_of_endsText ht ((take_mode hs).trans hmode) hends with ⟨rfl, -⟩ | ⟨rfl, -⟩
  · simp [Token.isText]
  · simp [Token.isText]

/-! ## Runs of tokens -/

/-- The tokens that a scanner reads one after another can be read so. -/
theorem Reads.areWellFormed {ts : List Token} (h : s.Reads ts t) : Token.AreWellFormed ts := by
  induction h with
  | nil => exact ⟨by simp, .nil⟩
  | @cons s t u token ts first rest ih =>
    refine ⟨List.forall_mem_cons.2 ⟨isWellFormed_of_take first, ih.forall_mem⟩, ?_⟩
    cases ts with
    | nil => exact .singleton token
    | cons next ts =>
      refine .cons_cons ?_ ih.isChain
      intro htoken
      obtain ⟨v, hv, -⟩ := cons_iff.1 rest
      have hmode : t.setMode (modeAfter s.mode token) = t := by
        apply setMode_of_mode
        cases token <;> simp_all [Token.isText, modeAfter, take_mode first]
      rw [hmode] at hv
      exact isText_of_take first htoken hv

end Scanner

end PageScript
