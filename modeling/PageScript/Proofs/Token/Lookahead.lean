import PageScript.Proofs.Document.RoundTrip
import PageScript.Proofs.Token.Shape
/-!
# What a token needs of the page behind it

A scanner takes as much for a token as belongs together, so it looks at what follows.  It looks at
no more than one character: inside a tag a token is read from its own characters, provided that what
is put behind them begins as before or with a blank, and a run of text is read from its own
characters in front of any tag.  So what stands behind a run of tokens can be replaced.
-/

namespace PageScript

/-! ## Blanks -/

/-- What replaces the page behind a token does not go on with the token: it begins as the page does
there, or with a blank. -/
def Apart (rest rest' : List Char) : Prop :=
  rest'.head? = rest.head? ∨ ∃ c ∈ rest'.head?, Scan.isGap c

section Apart

variable {p : Char → Bool} {input rest rest' : List Char}

lemma Scan.eq_of_isGap {c : Char} (h : Scan.isGap c) :
    c = ' ' ∨ c = '\t' ∨ c = '\r' ∨ c = '\n' := by
  simpa [Scan.isGap, or_assoc] using h

lemma Text.isNameChar_of_isGap (c : Char) (h : Scan.isGap c) : Text.isNameChar c = false := by
  rcases Scan.eq_of_isGap h with rfl | rfl | rfl | rfl <;> decide

lemma Scan.isNumeralChar_of_isGap (c : Char) (h : Scan.isGap c) :
    Scan.isNumeralChar c = false := by
  rcases Scan.eq_of_isGap h with rfl | rfl | rfl | rfl <;> decide

/-- What begins with a character of a class without blanks began so before. -/
lemma Apart.any_head? (h : Apart rest rest') (hp : ∀ c, Scan.isGap c → p c = false)
    (hrest : rest.head?.any p = false) : rest'.head?.any p = false := by
  rcases h with h | ⟨c, hc, hgap⟩
  · rwa [h]
  · rw [Option.mem_def.1 hc, Option.any_some, hp c hgap]

/-- A class without blanks ends where it ended if the page is replaced from there on. -/
lemma Apart.span (h : Apart (input.dropWhile p) rest') (hp : ∀ c, Scan.isGap c → p c = false) :
    (input.takeWhile p ++ rest').takeWhile p = input.takeWhile p ∧
      (input.takeWhile p ++ rest').dropWhile p = rest' :=
  span_append (fun _ => List.mem_takeWhile_imp) (h.any_head? hp (any_head?_dropWhile p input))

/-- A character that goes on with a class is still the first of the run. -/
lemma any_head?_takeWhile_append {q : Char → Bool} (hqp : ∀ c, q c → p c)
    (h : input.head?.any q) : (input.takeWhile p ++ rest).head?.any q := by
  cases input with
  | nil => simp at h
  | cons c input =>
    have hc : q c := by simpa using h
    simpa [List.takeWhile_cons_of_pos (hqp c hc)] using hc

end Apart

/-! ## Parts of tokens -/

namespace Scan

variable {done input rest : List Char}

/-- A run of text is read from its own characters, in front of any tag. -/
lemma exists_chars_of_text {run : List Char} (h : text done input = .ok (run, rest)) :
    ∃ chars, input = chars ++ rest ∧
      ∀ {rest'}, EndsText rest' → text done (chars ++ rest') = .ok (run, rest') := by
  fun_induction text done input with
  | case1 done =>
    obtain ⟨rfl, rfl⟩ : done.reverse = run ∧ [] = rest := by simpa using h
    exact ⟨[], rfl, text_of_endsText⟩
  | case2 done r =>
    obtain ⟨rfl, rfl⟩ : done.reverse = run ∧ '\x7b' :: '$' :: r = rest := by simpa using h
    exact ⟨[], rfl, text_of_endsText⟩
  | case3 done r ih | case4 done r ih =>
    obtain ⟨chars, rfl, hchars⟩ := ih h
    exact ⟨_ :: _ :: chars, rfl, hchars⟩
  | case5 => simp at h
  | case6 done c r hopen _ _ hslash ih =>
    obtain ⟨chars, rfl, hchars⟩ := ih h
    refine ⟨c :: chars, rfl, fun {rest'} hrest => ?_⟩
    rw [List.cons_append, text_cons hslash, hchars hrest]
    intro hc hhead
    cases chars with
    | nil => exact hrest.head?_ne hhead
    | cons d chars =>
      obtain rfl : d = '$' := by simpa using hhead
      exact hopen (chars ++ rest) hc rfl

/-- The body of a string literal is read from its own characters. -/
lemma exists_chars_of_literal {body : List Char} (h : literal done input = .ok (body, rest)) :
    ∃ chars, input = chars ++ rest ∧
      ∀ {rest'}, literal done (chars ++ rest') = .ok (body, rest') := by
  fun_induction literal done input with
  | case1 | case3 | case5 => simp at h
  | case2 done r =>
    obtain ⟨rfl, rfl⟩ : done.reverse = body ∧ r = rest := by simpa using h
    exact ⟨['"'], rfl, by simp [literal]⟩
  | case4 done c r d hd ih =>
    obtain ⟨chars, rfl, hchars⟩ := ih h
    refine ⟨'\\' :: c :: chars, rfl, fun {rest'} => ?_⟩
    rw [List.cons_append, List.cons_append, literal, hd]
    exact hchars
  | case6 done c r hquote hlast hslash ih =>
    obtain ⟨chars, hr, hchars⟩ := ih h
    have hne : c ≠ '\\' := by
      rintro rfl
      cases r with
      | nil => exact hlast rfl rfl
      | cons d r => exact hslash d r rfl rfl
    refine ⟨c :: chars, by rw [hr, List.cons_append], fun {rest'} => ?_⟩
    rw [List.cons_append, literal, hchars]
    · exact hquote
    · exact fun hc => absurd hc hne
    · exact fun d tail hc => absurd hc hne

lemma not_startsNumeral_of_apart {c : Char} {rest' : List Char} (hapart : Apart rest rest')
    (h : ¬ startsNumeral (c :: rest)) : ¬ startsNumeral (c :: rest') := by
  simp only [startsNumeral_cons, Bool.or_eq_true, Bool.and_eq_true, not_or, not_and] at h ⊢
  refine ⟨h.1, fun hsign => ?_⟩
  have hdigit (d : Char) (hd : isGap d) : d.isDigit = false := by
    rcases eq_of_isGap hd with rfl | rfl | rfl | rfl <;> decide
  simpa using hapart.any_head? hdigit (by simpa using h.2 hsign)

end Scan

/-- Whether a token in front of `rest` is read in front of `rest'` as well: a run of text in front
of any tag or the end of the page, a tag opening and a tag closing in front of anything, and other
tokens if nothing goes on with them. -/
def Token.Admits (rest rest' : List Char) : Token → Prop
  | .text _ => EndsText rest'
  | .tagOpen | .tagClose => True
  | .name _ | .number _ | .string _ | .operator _ | .function _ | .endOfInput => Apart rest rest'

/-- Nothing goes on with a token that is no run of text where it begins as before. -/
lemma Token.admits_of_apart {token : Token} {rest rest' : List Char} (h : Apart rest rest')
    (htext : ¬ token.isText) : token.Admits rest rest' := by
  cases token with
  | text => simp [isText] at htext
  | tagOpen | tagClose => trivial
  | name | number | string | operator | function | endOfInput => exact h

namespace Scanner

variable {s t u : Scanner} {token : Token} {input rest : List Char}

/-! ## Single tokens -/

lemma exists_chars_of_readNumber {c : Char} {tail : List Char}
    (h : s.readNumber c tail = (.ok token, rest)) :
    rest = tail.dropWhile Scan.isNumeralChar ∧ ∀ {u : Scanner} {rest'}, token.Admits rest rest' →
      u.readNumber c (tail.takeWhile Scan.isNumeralChar ++ rest') = (.ok token, rest') := by
  simp only [readNumber, Prod.mk.injEq] at h
  obtain ⟨htoken, rfl⟩ := h
  split at htoken
  · next n hn =>
    obtain rfl := Except.ok.inj htoken
    refine ⟨rfl, fun {u rest'} hapart => ?_⟩
    obtain ⟨htake, hdrop⟩ := Apart.span hapart Scan.isNumeralChar_of_isGap
    simp only [readNumber, htake, hdrop, hn]
  · simp at htoken

lemma exists_chars_of_readString (h : s.readString input = (.ok token, rest)) :
    ∃ chars, input = chars ++ rest ∧
      ∀ {u : Scanner} {rest'}, u.readString (chars ++ rest') = (.ok token, rest') := by
  unfold readString at h
  split at h
  · next hbody =>
    obtain ⟨htoken, rfl⟩ := Prod.mk.inj h
    obtain ⟨chars, rfl, hchars⟩ := Scan.exists_chars_of_literal hbody
    exact ⟨chars, rfl, fun {u rest'} => by rw [readString, hchars, ← htoken]⟩
  · simp at h
  · simp at h

/-- A token of a tag is read from its own characters. -/
lemma exists_chars_of_readTag (h : s.readTag input = (.ok token, rest))
    (hne : token ≠ .endOfInput) :
    ∃ chars, input = chars ++ rest ∧ ∀ {u : Scanner} {rest'}, token.Admits rest rest' →
      u.readTag (chars ++ rest') = (.ok token, rest') := by
  cases input with
  | nil =>
    simp only [readTag, Prod.mk.injEq, Except.ok.injEq] at h
    exact absurd h.1.symm hne
  | cons c tail =>
    unfold readTag at h
    dsimp only at h
    rw [Scan.startsNumeral_cons] at h
    split_ifs at h with hequals hletter hnumeral hoperator hfunction hquote hclose
    · -- the name of an echo tag
      obtain ⟨⟨⟩, rfl⟩ := Prod.mk.inj h
      refine ⟨[c], rfl, fun {u rest'} _ => ?_⟩
      rw [List.singleton_append, readTag, if_pos hequals]
    · -- a name
      obtain ⟨⟨⟩, rfl⟩ := Prod.mk.inj h
      refine ⟨c :: tail.takeWhile Text.isNameChar, by simp, fun {u rest'} hapart => ?_⟩
      obtain ⟨htake, hdrop⟩ := Apart.span hapart Text.isNameChar_of_isGap
      rw [List.cons_append, readTag, if_neg hequals, if_pos hletter, htake, hdrop]
    · -- a numeral
      obtain ⟨rfl, hread⟩ := exists_chars_of_readNumber h
      refine ⟨c :: tail.takeWhile Scan.isNumeralChar, by simp, fun {u rest'} hapart => ?_⟩
      have hstarts : Scan.startsNumeral (c :: (tail.takeWhile Scan.isNumeralChar ++ rest')) := by
        simp only [Scan.startsNumeral_cons, Bool.or_eq_true, Bool.and_eq_true] at hnumeral ⊢
        exact hnumeral.imp_right <| And.imp_right <|
          any_head?_takeWhile_append fun _ => Scan.isNumeralChar_of_isDigit
      rw [List.cons_append, readTag, if_neg hequals, if_neg hletter, if_pos hstarts, hread hapart]
    · -- an operator
      obtain ⟨⟨⟩, rfl⟩ := Prod.mk.inj h
      refine ⟨[c], rfl, fun {u rest'} hapart => ?_⟩
      rw [← Scan.startsNumeral_cons] at hnumeral
      have hstarts := Scan.not_startsNumeral_of_apart hapart hnumeral
      rw [List.singleton_append, readTag, if_neg hequals, if_neg hletter, if_neg hstarts,
        if_pos hoperator]
    · -- a function
      obtain ⟨⟨⟩, rfl⟩ := Prod.mk.inj h
      obtain ⟨rfl, hhead⟩ := hfunction
      refine ⟨'@' :: tail.takeWhile Text.isNameChar, by simp, fun {u rest'} hapart => ?_⟩
      obtain ⟨htake, hdrop⟩ := Apart.span hapart Text.isNameChar_of_isGap
      have hhead' := @any_head?_takeWhile_append _ tail rest' _
        (fun _ => Text.isNameChar_of_isLetter) hhead
      rw [List.cons_append, readTag, if_neg hequals, if_neg hletter,
        if_neg (by simp [Scan.startsNumeral_cons]), if_neg hoperator, if_pos ⟨rfl, hhead'⟩, htake,
        hdrop]
    · -- a string literal
      obtain ⟨chars, rfl, hread⟩ := exists_chars_of_readString h
      subst hquote
      refine ⟨'"' :: chars, rfl, fun {u rest'} _ => ?_⟩
      rw [List.cons_append, readTag, if_neg hequals, if_neg hletter,
        if_neg (by simp [Scan.startsNumeral_cons]), if_neg hoperator, if_neg (by simp), if_pos rfl,
        hread]
    · -- a tag closing
      obtain ⟨⟨⟩, rfl⟩ := Prod.mk.inj h
      obtain ⟨rfl, hhead⟩ := hclose
      obtain ⟨tail, rfl⟩ := List.head?_eq_some_iff.1 hhead
      exact ⟨['$', '\x7d'], rfl, fun _ => readTag_tagClose⟩
    · simp at h

/-- A name ends where no name goes on. -/
lemma any_head?_of_readTag {word : String} (h : s.readTag input = (.ok (.name word), rest))
    (hne : word ≠ "=") : rest.head?.any Text.isNameChar = false := by
  cases readsInTag_of_readTag h with
  | equals => exact absurd rfl hne
  | name hletter => exact any_head?_dropWhile _ _

/-- A token of a tag is read behind any blanks. -/
lemma StandsAt.take_of_readTag {blanks : List Char} (hu : u.StandsAt .tag (blanks ++ input))
    (hblanks : ∀ c ∈ blanks, Scan.isGap c) (h : u.readTag input = (.ok token, rest))
    (hne : token ≠ .endOfInput) : ∃ v, u.take = .ok (token, v) ∧ v.StandsAt .tag rest := by
  refine hu.take ?_ hne
  rw [read, hu.mode_eq, hu.rest_eq]
  dsimp only
  rw [List.dropWhile_append_of_pos hblanks, dropWhile_isGap_of_readTag h, h]

/-- A token is read from its own characters and the blanks before it. -/
lemma exists_chars_of_take (h : s.take = .ok (token, t)) (hne : token ≠ .endOfInput) :
    ∃ chars, s.rest = chars ++ t.rest ∧ ∀ {u : Scanner} {rest'}, token.Admits t.rest rest' →
      u.StandsAt s.mode (chars ++ rest') →
        ∃ v, u.take = .ok (token, v) ∧ v.StandsAt s.mode rest' := by
  cases takes_of_take h with
  | endOfPage => exact absurd rfl hne
  | tagOpen hmode hrest =>
    refine ⟨['\x7b', '$'], hrest, fun {u rest'} _ hu => ?_⟩
    rw [hmode] at hu ⊢
    exact hu.take (by rw [read, hu.mode_eq, hu.rest_eq]; rfl) hne
  | text hmode hrun htext =>
    obtain ⟨chars, hchars, htext'⟩ := Scan.exists_chars_of_text htext
    refine ⟨chars, hchars, fun {u rest'} hadmits hu => ?_⟩
    rw [hmode] at hu ⊢
    exact hu.take_run (htext' hadmits) hrun
  | inTag hmode hread =>
    obtain ⟨chars, hchars, hread'⟩ := exists_chars_of_readTag hread hne
    refine ⟨s.rest.takeWhile Scan.isGap ++ chars, ?_, fun {u rest'} hadmits hu => ?_⟩
    · rw [List.append_assoc, ← hchars, List.takeWhile_append_dropWhile]
    · rw [hmode, List.append_assoc] at hu
      rw [hmode]
      exact hu.take_of_readTag (fun _ => List.mem_takeWhile_imp) (hread' hadmits) hne

/-! ## Runs of tokens -/

/-- In front of a whole token, what stands behind that may be replaced. -/
lemma admits_of_take {next : Token} {chars rest' : List Char} (hs : s.take = .ok (token, t))
    (ht : (t.setMode (modeAfter s.mode token)).take = .ok (next, u)) (hne : next ≠ .endOfInput)
    (hchars : t.rest = chars ++ rest) (hrest : rest <:+ u.rest) :
    token.Admits t.rest (chars ++ rest') := by
  by_cases htext : token.isText
  · obtain ⟨hmode, hends⟩ := endsText_of_take hs htext
    cases token with
    | tagOpen | tagClose | name | number | string | operator | function | endOfInput =>
      simp [Token.isText] at htext
    | text run =>
      obtain ⟨rfl, -⟩ | ⟨-, hahead⟩ := takes_of_endsText ht hmode hends
      · exact absurd rfl hne
      -- The tag opening stays whole, for nothing before it has been read is replaced.
      obtain ⟨front, hfront⟩ := hrest
      rw [setMode_rest, hchars, ← hfront] at hahead
      obtain rfl : chars = '\x7b' :: '$' :: front := List.append_cancel_right hahead
      exact .tagOpen (front ++ rest')
  · refine Token.admits_of_apart (.inl ?_) htext
    have hlength := take_length_lt ht hne
    rw [setMode_rest, hchars] at hlength
    have hle := hrest.length_le
    cases chars with
    | nil =>
      rw [List.nil_append] at hlength
      omega
    | cons c chars => rw [hchars]; rfl

/-- A run of tokens is read from its own characters, in front of all that its last token can stand
in front of. -/
theorem Reads.exists_chars {ts : List Token} (h : s.Reads ts t) (hends : .endOfInput ∉ ts) :
    ∃ chars, s.rest = chars ++ t.rest ∧ ∀ {u : Scanner} {rest'},
      (∀ a ∈ ts.getLast?, a.Admits t.rest rest') → u.StandsAt s.mode (chars ++ rest') →
        ∃ v, u.Reads ts v ∧ v.StandsAt t.mode rest' := by
  induction h with
  | nil s => exact ⟨[], rfl, fun {u rest'} _ hu => ⟨u, .nil u, hu⟩⟩
  | @cons s t w token ts first rest ih =>
    obtain ⟨hne, hends⟩ : token ≠ .endOfInput ∧ .endOfInput ∉ ts := by
      simpa [eq_comm] using hends
    obtain ⟨front, hfront, hread⟩ := exists_chars_of_take first hne
    obtain ⟨back, hback, hreads⟩ := ih hends
    rw [setMode_rest] at hback
    refine ⟨front ++ back, by rw [List.append_assoc, ← hback, hfront], ?_⟩
    intro u rest' hlast hu
    have hadmits : token.Admits t.rest (back ++ rest') := by
      cases rest with
      | nil =>
        obtain rfl : back = [] := by simpa using hback
        exact hlast token (by simp)
      | cons next rest =>
        exact admits_of_take first next (List.ne_of_not_mem_cons hends).symm hback rest.suffix
    have hlast' : ∀ a ∈ ts.getLast?, a.Admits w.rest rest' := by
      intro a ha
      refine hlast a ?_
      rw [List.getLast?_cons, Option.mem_def.1 ha]
      rfl
    rw [List.append_assoc] at hu
    obtain ⟨v, hv, hstands⟩ := hread hadmits hu
    have hstands' : (v.setMode (modeAfter s.mode token)).StandsAt
        (t.setMode (modeAfter s.mode token)).mode (back ++ rest') :=
      ⟨rfl, hstands.rest_eq, hstands.last_ne⟩
    obtain ⟨x, hx, hstands''⟩ := hreads hlast' hstands'
    refine ⟨x, cons_iff.2 ⟨v, hv, ?_⟩, hstands''⟩
    rwa [hu.mode_eq]

/-- A run of tokens stands in front of what is left behind it. -/
lemma Reads.admits_rest {ts : List Token} (h : s.Reads ts t) :
    ∀ a ∈ ts.getLast?, a.Admits t.rest t.rest := by
  intro a ha
  obtain ⟨u, v, hv, rfl⟩ := h.exists_take ha
  by_cases htext : a.isText
  · have hends := (endsText_of_take hv htext).2
    cases a with
    | text run => exact hends
    | tagOpen | tagClose | name | number | string | operator | function | endOfInput =>
      simp [Token.isText] at htext
  · exact Token.admits_of_apart (.inl rfl) htext

/-- Behind a tag, and behind a run of text, the rules of text are in force. -/
lemma Reads.mode_eq_text {ts : List Token} (h : s.Reads ts t) (hmode : s.mode = .text)
    (hlast : ∀ a ∈ ts.getLast?, a = .tagClose ∨ a.isText) : t.mode = .text := by
  cases hts : ts.getLast? with
  | none =>
    obtain rfl := List.getLast?_eq_none_iff.1 hts
    rwa [← nil_iff.1 h]
  | some a =>
    obtain ⟨u, v, hv, rfl⟩ := h.exists_take hts
    rcases hlast a hts with rfl | ha
    · rfl
    · have hmode := (endsText_of_take hv ha).1
      cases a with
      | text run => exact hmode
      | tagOpen | tagClose | name | number | string | operator | function | endOfInput =>
        simp [Token.isText] at ha

/-- A run of tokens that ends inside a tag is read in front of everything that its last token does
not go on with. -/
lemma Reads.admits_of_tag {ts : List Token} {rest' : List Char} (h : s.Reads ts t)
    (hs : s.mode = .text) (ht : t.mode = .tag)
    (hahead : t.last = some .tagOpen ∨ Apart t.rest rest') :
    ∀ a ∈ ts.getLast?, a.Admits t.rest rest' := by
  intro a ha
  have htext : ¬ a.isText := by
    intro htext
    have hmode := h.mode_eq_text hs fun b hb => .inr (Option.mem_unique ha hb ▸ htext)
    simp [ht] at hmode
  rcases hahead with hopen | hapart
  · obtain rfl := Option.some.inj ((h.last_eq ha).symm.trans hopen)
    trivial
  · exact Token.admits_of_apart hapart htext

end Scanner

end PageScript
