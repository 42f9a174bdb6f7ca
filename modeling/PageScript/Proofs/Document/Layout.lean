import PageScript.Proofs.Document.Concatenation
import Mathlib
/-!
# The layout of tags

Between two tokens of a tag any blanks may be put, and the name of a loop tag or an end tag may be
written in small and capital letters alike; the page is read as the same document.

Where blanks are put into a page, its tokens stay as they are: those before the place end there and
are read as before, and those behind it begin after the blanks.  Where a name is respelled, one
token changes, and it is a name that the grammar knows in any case.
-/

namespace PageScript

open Scanner

/-! ## Names of tags in other cases -/

/-- `Recased ts ts'` holds if the tokens `ts'` are `ts` except for the case of the letters in names
of loop tags and end tags. -/
inductive Recased : List Token → List Token → Prop
  /-- No token is left. -/
  | nil : Recased [] []
  /-- A token stays as it is. -/
  | cons (token : Token) {ts ts' : List Token} (rest : Recased ts ts') :
      Recased (token :: ts) (token :: ts')
  /-- The name of a loop tag or an end tag is written in other letters. -/
  | name {word word' : String} {ts ts' : List Token}
      (hname : Tag.upper word = "FOR".toList ∨ Tag.upper word = "END".toList)
      (hcase : Tag.upper word' = Tag.upper word) (rest : Recased ts ts') :
      Recased (.tagOpen :: .name word :: ts) (.tagOpen :: .name word' :: ts')

namespace Recased

variable {a b ts us : List Token}

lemma refl (ts : List Token) : Recased ts ts := by
  induction ts with
  | nil => exact .nil
  | cons token ts ih => exact .cons token ih

lemma append_left (front : List Token) (h : Recased ts us) :
    Recased (front ++ ts) (front ++ us) := by
  induction front with
  | nil => exact h
  | cons token front ih => exact .cons token ih

/-- A tag opening and a name are not separated where the tokens go on with no name. -/
lemma of_append (h : Recased (a ++ b) us) (hb : ∀ word, .name word ∉ b.head?) :
    ∃ a' b', us = a' ++ b' ∧ Recased a a' ∧ Recased b b' := by
  generalize hts : a ++ b = ts at h
  induction h generalizing a with
  | nil =>
    obtain ⟨rfl, rfl⟩ := List.append_eq_nil_iff.1 hts
    exact ⟨[], [], rfl, .nil, .nil⟩
  | cons token rest ih =>
    rcases List.append_eq_cons_iff.1 hts with ⟨rfl, rfl⟩ | ⟨a, rfl, rfl⟩
    · exact ⟨[], _, rfl, .nil, .cons token rest⟩
    · obtain ⟨a', b', rfl, ha, hb⟩ := ih rfl
      exact ⟨token :: a', b', rfl, .cons token ha, hb⟩
  | @name word _ _ _ hname hcase rest ih =>
    rcases List.append_eq_cons_iff.1 hts with ⟨rfl, rfl⟩ | ⟨a, rfl, hrest⟩
    · exact ⟨[], _, rfl, .nil, .name hname hcase rest⟩
    rcases List.append_eq_cons_iff.1 hrest.symm with ⟨rfl, rfl⟩ | ⟨a, rfl, rfl⟩
    · exact absurd rfl (hb word)
    · obtain ⟨a', b', rfl, ha, hb⟩ := ih rfl
      exact ⟨_ :: _ :: a', b', rfl, .name hname hcase ha, hb⟩

/-- Without a tag opening there is no name of a tag. -/
lemma eq_of_notMem (h : Recased ts us) (hopen : .tagOpen ∉ ts) : us = ts := by
  induction h with
  | nil => rfl
  | cons token rest ih => rw [ih (List.not_mem_of_not_mem_cons hopen)]
  | name => simp at hopen

end Recased

/-- A tag is spelled in any case of its name. -/
lemma Tag.Spelling.recased {tag : Tag} {spelled ts us : List Token} (h : tag.Spelling spelled)
    (hre : Recased (.tagOpen :: (spelled ++ .tagClose :: ts)) us) :
    ∃ spelled' ts', us = .tagOpen :: (spelled' ++ .tagClose :: ts') ∧ tag.Spelling spelled' ∧
      Recased ts ts' := by
  have hopen : Token.tagOpen ∉ spelled := by
    intro hmem
    obtain ⟨e, he⟩ := h.exists_element _ hmem
    exact e.token_ne_tagOpen he.symm
  rw [← List.cons_append] at hre
  obtain ⟨a, b, rfl, ha, hb⟩ := hre.of_append (by simp)
  cases hb with
  | cons _ hts =>
  rename_i ts'
  cases ha with
  | cons _ hspelled => exact ⟨spelled, ts', by rw [hspelled.eq_of_notMem hopen]; rfl, h, hts⟩
  | @name word word' more more' hname hcase hmore =>
    rw [hmore.eq_of_notMem (List.not_mem_of_not_mem_cons hopen)]
    refine ⟨.name word' :: more, ts', rfl, ?_, hts⟩
    cases h with
    | echo =>
      rcases hname with hname | hname
      · exact absurd rfl (Tag.ne_equals hname (by decide))
      · exact absurd rfl (Tag.ne_equals hname (by decide))
    | loopStart hword hheader => exact .loopStart (hcase.trans hword) hheader
    | loopEnd hword => exact .loopEnd (hcase.trans hword)

/-- Tokens derive the same document in any case of the names of tags. -/
theorem Derivation.recased {ts us : List Token} {d : Document} (a : Derivation ts d)
    (h : Recased ts us) : Nonempty (Derivation us d) := by
  induction a generalizing us with
  | nil =>
    cases h
    exact ⟨.nil⟩
  | text run a ih =>
    cases h with
    | cons _ rest =>
    obtain ⟨b⟩ := ih rest
    exact ⟨.text run b⟩
  | echo spelling a ih =>
    obtain ⟨spelled, ts, rfl, hspelled, hts⟩ := spelling.recased h
    obtain ⟨b⟩ := ih hts
    exact ⟨.echo hspelled b⟩
  | loop start inner stop a ihinner ih =>
    obtain ⟨opening, us, rfl, hopening, hus⟩ := start.recased h
    obtain ⟨inside, vs, rfl, hinside, hvs⟩ := hus.of_append (by simp)
    obtain ⟨closing, ts, rfl, hclosing, hts⟩ := stop.recased hvs
    obtain ⟨body⟩ := ihinner hinside
    obtain ⟨b⟩ := ih hts
    exact ⟨.loop hopening body hclosing b⟩

/-- What is a letter in capitals is a letter. -/
lemma Text.isLetter_of_toUpper {c : Char} (h : isLetter c.toUpper) : isLetter c := by
  unfold Char.toUpper at h
  split at h
  · next hlower =>
    have hbound : c.toNat ≤ 122 := hlower.2
    have halpha : c.isAlpha := by
      rw [Char.isAlpha, Bool.or_eq_true]
      right
      simpa [Char.isLower] using hlower
    rwa [isLetter, if_pos (by omega)]
  · exact h

/-- What is a name of letters in capitals is a name. -/
lemma Tag.isName_of_upper {word : String} {name : List Char} (h : upper word = name)
    (hne : name ≠ []) (hletter : name.all Text.isLetter) : Text.isName word.toList := by
  have hall : ∀ c ∈ word.toList, Text.isLetter c := by
    intro c hc
    refine Text.isLetter_of_toUpper (List.all_eq_true.1 hletter _ ?_)
    rw [← h]
    exact List.mem_map_of_mem hc
  unfold upper at h
  cases hword : word.toList with
  | nil => simp [← h, hword] at hne
  | cons c chars =>
    obtain ⟨hc, hchars⟩ := List.forall_mem_cons.1 (hword ▸ hall)
    rw [Text.isName, Bool.and_eq_true, List.all_eq_true]
    exact ⟨hc, fun d hd => Text.isNameChar_of_isLetter (hchars d hd)⟩

/-! ## Other layouts -/

/-- A place between two tokens of a tag: the page goes on behind `front` with what is ahead of the
scanner `s`, which has read the tokens of `front` and is inside a tag. -/
structure InTag (page front : List Char) (s : Scanner) : Prop where
  /-- The page goes on with what is ahead. -/
  page_eq : page = front ++ s.rest
  /-- The tokens up to here have been read. -/
  reads : ∃ ts, (ofSource page).Reads ts s
  /-- A tag is open. -/
  mode_eq : s.mode = .tag
  /-- The end of the page has not been read. -/
  last_ne : s.last ≠ some .endOfInput

/-- `Relaid page page'` holds if the page `page'` is `page` except for the layout of one tag. -/
inductive Relaid (page : List Char) : List Char → Prop
  /-- Blanks are put between two tokens of a tag, among the blanks that are there. -/
  | blanks {front old new ahead : List Char} {s : Scanner} (place : InTag page front s)
      (hrest : s.rest = old ++ ahead) (hold : ∀ c ∈ old, Scan.isGap c)
      (hnew : ∀ c ∈ new, Scan.isGap c) : Relaid page (front ++ (old ++ (new ++ ahead)))
  /-- The name of a loop tag or an end tag is written in other letters. -/
  | name {front old : List Char} {word word' : String} {s t : Scanner} (place : InTag page front s)
      (hopen : s.last = some .tagOpen) (hword : s.take = .ok (.name word, t))
      (hrest : s.rest = old ++ (word.toList ++ t.rest)) (hold : ∀ c ∈ old, Scan.isGap c)
      (hname : Tag.upper word = "FOR".toList ∨ Tag.upper word = "END".toList)
      (hcase : Tag.upper word' = Tag.upper word) :
      Relaid page (front ++ (old ++ (word'.toList ++ t.rest)))

namespace Document

variable {page front : List Char} {d : Document} {s : Scanner}

/-- A place in a tag of a document has a token behind it.  Another token there, with what stands
behind the first one, makes a page of the same document if the tokens derive it. -/
lemma read_of_inTag (h : read page = .ok d) (place : InTag page front s) :
    ∃ ts next t more, (ofSource page).Reads ts s ∧ s.take = .ok (next, t) ∧ next ≠ .endOfInput ∧
      Nonempty (Derivation (ts ++ next :: more) d) ∧
      ∀ {next' : Token} {ahead : List Char}, s.last = some .tagOpen ∨ Apart s.rest ahead →
        modeAfter .tag next' = modeAfter .tag next →
        (∀ u : Scanner, u.StandsAt .tag ahead →
          ∃ v, u.take = .ok (next', v) ∧ v.StandsAt .tag t.rest) →
        Nonempty (Derivation (ts ++ next' :: more) d) → read (front ++ ahead) = .ok d := by
  obtain ⟨us, w, ⟨a⟩, hus, hw, hends⟩ := exists_reads_of_read h
  have hmode : w.mode = .text := a.mode_eq_text hus rfl
  have hne : w ≠ s := by
    rintro rfl
    simp [place.mode_eq] at hmode
  obtain ⟨ts, hts⟩ := place.reads
  obtain ⟨next, t, more, rfl, hnext, hmore⟩ : ∃ next t more, us = ts ++ next :: more ∧
      s.take = .ok (next, t) ∧ (t.setMode (modeAfter .tag next)).Reads more w := by
    rcases hts.append_or hus with ⟨more, rfl, hmore⟩ | ⟨more, -, hmore⟩
    · cases more with
      | nil => exact absurd (Reads.nil_iff.1 hmore).symm hne
      | cons next more =>
        obtain ⟨t, hnext, hmore⟩ := Reads.cons_iff.1 hmore
        rw [place.mode_eq] at hmore
        exact ⟨next, t, more, rfl, hnext, hmore⟩
    -- behind the whole document only the end of the page is read, and not in this tag
    · exact absurd ((hmore.eq_or_of_rest_eq_nil hw).resolve_left hne) place.last_ne
  obtain ⟨hends, hends', hends''⟩ : .endOfInput ∉ ts ∧ .endOfInput ≠ next ∧ .endOfInput ∉ more := by
    simpa only [List.mem_append, List.mem_cons, not_or] using hends
  refine ⟨ts, next, t, more, hts, hnext, hends'.symm, ⟨a⟩, ?_⟩
  rintro next' ahead hahead hkind htake ⟨b⟩
  obtain ⟨chars, hchars, hreads⟩ := hts.exists_chars hends
  obtain rfl : chars = front := List.append_cancel_right (hchars.symm.trans place.page_eq)
  obtain ⟨u, hu, hstands⟩ := hreads (hts.admits_of_tag rfl place.mode_eq hahead)
    (standsAt_ofSource (chars ++ ahead))
  rw [place.mode_eq] at hstands
  obtain ⟨v, hv, hstands'⟩ := htake u hstands
  have hstands'' : (v.setMode (modeAfter .tag next')).StandsAt
      (t.setMode (modeAfter .tag next)).mode ((t.setMode (modeAfter .tag next)).rest ++ []) :=
    ⟨hkind, by simpa using hstands'.rest_eq, hstands'.last_ne⟩
  obtain ⟨x, hx, hend⟩ := hmore.append_page hstands'' hends'' (.inl rfl)
  rw [hmode, hw] at hend
  have hall : (ofSource (chars ++ ahead)).Reads (ts ++ next' :: more) x := by
    refine hu.trans (.cons hv ?_)
    rwa [hstands.mode_eq]
  rw [read, readFrom_of_derivation b hall, readFrom_endOfInput (take_endOfInput hend)]
  simp

/-- Blanks between two tokens of a tag do not change what a page is read as. -/
lemma read_of_blanks {old new ahead : List Char} (h : read page = .ok d)
    (place : InTag page front s) (hrest : s.rest = old ++ ahead) (hold : ∀ c ∈ old, Scan.isGap c)
    (hnew : ∀ c ∈ new, Scan.isGap c) : read (front ++ (old ++ (new ++ ahead))) = .ok d := by
  obtain ⟨ts, next, t, more, -, hnext, hne, a, hread⟩ := read_of_inTag h place
  have hapart : Apart s.rest (old ++ (new ++ ahead)) := by
    rw [hrest]
    cases old with
    | cons c old => exact .inl rfl
    | nil =>
      cases new with
      | nil => exact .inl rfl
      | cons c new => exact .inr ⟨c, rfl, hnew c List.mem_cons_self⟩
  refine hread (.inr hapart) rfl (fun u hu => ?_) a
  have htag := readTag_of_take hnext place.mode_eq
  rw [hrest, List.dropWhile_append_of_pos hold] at htag
  -- the token behind the place begins where all blanks in front of it end
  obtain ⟨chars, hchars, htag'⟩ := exists_chars_of_readTag htag hne
  have hahead : old ++ (new ++ ahead) =
      (old ++ new ++ ahead.takeWhile Scan.isGap) ++ (chars ++ t.rest) := by
    rw [← hchars, List.append_assoc, List.append_assoc, List.takeWhile_append_dropWhile]
  have hblanks : ∀ c ∈ old ++ new ++ ahead.takeWhile Scan.isGap, Scan.isGap c := by
    simp only [List.forall_mem_append]
    exact ⟨⟨hold, hnew⟩, fun _ => List.mem_takeWhile_imp⟩
  rw [hahead] at hu
  have hadmits := @Token.admits_of_apart _ t.rest _ (.inl rfl) (readTag_eq_ok htag).2
  exact hu.take_of_readTag hblanks (htag' hadmits) hne

/-- The case of the letters in the name of a loop tag or an end tag does not change what a page is
read as. -/
lemma read_of_name {old : List Char} {word word' : String} {t : Scanner} (h : read page = .ok d)
    (place : InTag page front s) (hopen : s.last = some .tagOpen)
    (hword : s.take = .ok (.name word, t)) (hold : ∀ c ∈ old, Scan.isGap c)
    (hname : Tag.upper word = "FOR".toList ∨ Tag.upper word = "END".toList)
    (hcase : Tag.upper word' = Tag.upper word) :
    read (front ++ (old ++ (word'.toList ++ t.rest))) = .ok d := by
  obtain ⟨ts, next, t', more, hts, hnext, -, ⟨a⟩, hread⟩ := read_of_inTag h place
  obtain ⟨rfl, rfl⟩ : next = .name word ∧ t' = t := by simpa using hnext.symm.trans hword
  have hrecased : Recased (ts ++ .name word :: more) (ts ++ .name word' :: more) := by
    rcases List.eq_nil_or_concat ts with rfl | ⟨us, token, rfl⟩
    · rw [← Reads.nil_iff.1 hts] at hopen
      simp [ofSource] at hopen
    · have hlast : s.last = some token := hts.last_eq (by simp)
      obtain rfl := Option.some.inj (hlast.symm.trans hopen)
      rw [List.concat_eq_append, List.append_assoc, List.append_assoc]
      exact .append_left us (.name hname hcase (.refl more))
  refine @hread (.name word') _ (.inl hopen) rfl (fun u hu => ?_) (a.recased hrecased)
  have htag := readTag_of_take hword place.mode_eq
  have hne : word ≠ "=" := by
    rcases hname with hname | hname
    · exact Tag.ne_equals hname (by decide)
    · exact Tag.ne_equals hname (by decide)
  have hname' : Text.isName word'.toList := by
    rcases hname with hname | hname
    · exact Tag.isName_of_upper (hcase.trans hname) (by decide) (by decide)
    · exact Tag.isName_of_upper (hcase.trans hname) (by decide) (by decide)
  have hread' : u.readTag (word'.toList ++ t'.rest) = (.ok (.name word'), t'.rest) := by
    rw [readTag_name_append hname' (any_head?_of_readTag htag hne), String.ofList_toList]
  exact hu.take_of_readTag hold hread' (by simp)

/-- A page that is read as a document is read as the same document in any other layout of its
tags. -/
theorem read_of_relaid {page' : List Char} (h : read page = .ok d)
    (hrelaid : Relation.ReflTransGen Relaid page page') : read page' = .ok d := by
  induction hrelaid with
  | refl => exact h
  | tail _ step ih =>
    cases step with
    | blanks place hrest hold hnew => exact read_of_blanks ih place hrest hold hnew
    | name place hopen hword _ hold hname hcase =>
      exact read_of_name ih place hopen hword hold hname hcase

/-! ## A loop tag in another layout -/

/-- A loop from `1` to `-2` with nothing in it. -/
def emptyLoop : Document := [.loop ⟨"i", .number (.int 1), .number (.int (-2)), none⟩ []]

lemma read_emptyLoop : read "\x7b$FOR i 1 -2 $\x7d\x7b$END$\x7d".toList = .ok emptyLoop := by
  have hpage : "\x7b$FOR i 1 -2 $\x7d\x7b$END$\x7d".toList = source emptyLoop := by rfl
  rw [hpage]
  refine readFrom_source (.loop ⟨by decide, ?_, by decide⟩ .nil .nil) (by decide)
    (standsAt_ofSource _)
  simp [LoopHeader.operands, Element.IsWellFormed]

/-- A scanner that has read a token of a tag. -/
def insideTag (page rest : List Char) (last : Token) : Scanner := ⟨page, rest, .tag, some last⟩

variable (more : List Char)

/-- A blank is put between a tag opening and the name of the tag. -/
lemma relaid_opening :
    Relaid ("\x7b$FOR i 1 -2".toList ++ more) ("\x7b$\tFOR i 1 -2".toList ++ more) := by
  generalize hpage : "\x7b$FOR i 1 -2".toList ++ more = page
  have hopen : (ofSource page).take =
      .ok (.tagOpen, ⟨page, "FOR i 1 -2".toList ++ more, .text, some .tagOpen⟩) := by
    rw [← hpage]
    rfl
  have place : InTag page ['\x7b', '$'] (insideTag page ("FOR i 1 -2".toList ++ more) .tagOpen) :=
    ⟨hpage.symm, ⟨_, .cons hopen (.nil _)⟩, rfl, by simp [insideTag]⟩
  exact @Relaid.blanks _ _ [] ['\t'] _ _ place rfl (by simp) (by simp [Scan.isGap])

/-- The name of a loop tag is written in small letters. -/
lemma relaid_name :
    Relaid ("\x7b$\tFOR i 1 -2".toList ++ more) ("\x7b$\tfor i 1 -2".toList ++ more) := by
  generalize hpage : "\x7b$\tFOR i 1 -2".toList ++ more = page
  have hopen : (ofSource page).take =
      .ok (.tagOpen, ⟨page, "\tFOR i 1 -2".toList ++ more, .text, some .tagOpen⟩) := by
    rw [← hpage]
    rfl
  have hname : (insideTag page ("\tFOR i 1 -2".toList ++ more) .tagOpen).take =
      .ok (.name "FOR", insideTag page (" i 1 -2".toList ++ more) (.name "FOR")) := rfl
  have place : InTag page ['\x7b', '$'] (insideTag page ("\tFOR i 1 -2".toList ++ more) .tagOpen) :=
    ⟨hpage.symm, ⟨_, .cons hopen (.nil _)⟩, rfl, by simp [insideTag]⟩
  exact @Relaid.name _ _ ['\t'] _ "for" _ _ place rfl hname rfl (by simp [Scan.isGap])
    (by decide) (by decide)

/-- A line is broken between two numbers, of which the second begins with its sign. -/
lemma relaid_numbers :
    Relaid ("\x7b$\tfor i 1 -2".toList ++ more) ("\x7b$\tfor i 1\n -2".toList ++ more) := by
  generalize hpage : "\x7b$\tfor i 1 -2".toList ++ more = page
  have hopen : (ofSource page).take =
      .ok (.tagOpen, ⟨page, "\tfor i 1 -2".toList ++ more, .text, some .tagOpen⟩) := by
    rw [← hpage]
    rfl
  have hname : (insideTag page ("\tfor i 1 -2".toList ++ more) .tagOpen).take =
      .ok (.name "for", insideTag page (" i 1 -2".toList ++ more) (.name "for")) := rfl
  have hvariable : (insideTag page (" i 1 -2".toList ++ more) (.name "for")).take =
      .ok (.name "i", insideTag page (" 1 -2".toList ++ more) (.name "i")) := rfl
  have hnumber : (insideTag page (" 1 -2".toList ++ more) (.name "i")).take =
      .ok (.number (.int 1), insideTag page (" -2".toList ++ more) (.number (.int 1))) := by cbv
  have place : InTag page "\x7b$\tfor i 1".toList
      (insideTag page (" -2".toList ++ more) (.number (.int 1))) :=
    ⟨hpage.symm, ⟨_, .cons hopen (.cons hname (.cons hvariable (.cons hnumber (.nil _))))⟩, rfl,
      by simp [insideTag]⟩
  exact @Relaid.blanks _ _ [] ['\n'] _ _ place rfl (by simp) (by simp [Scan.isGap])

/-- A loop tag with a blank before its name, in small letters, and a line break between its
numbers. -/
theorem read_spacedLoop :
    Relation.ReflTransGen Relaid "\x7b$FOR i 1 -2 $\x7d\x7b$END$\x7d".toList
        "\x7b$\tfor i 1\n -2 $\x7d\x7b$END$\x7d".toList ∧
      read "\x7b$\tfor i 1\n -2 $\x7d\x7b$END$\x7d".toList = .ok emptyLoop := by
  have hrelaid : Relation.ReflTransGen Relaid "\x7b$FOR i 1 -2 $\x7d\x7b$END$\x7d".toList
      "\x7b$\tfor i 1\n -2 $\x7d\x7b$END$\x7d".toList := by
    generalize hmore : " $\x7d\x7b$END$\x7d".toList = more
    have h := Relation.ReflTransGen.single (relaid_opening more)
    have h' := (h.tail (relaid_name more)).tail (relaid_numbers more)
    rw [← hmore] at h'
    exact h'
  exact ⟨hrelaid, read_of_relaid read_emptyLoop hrelaid⟩

end Document

end PageScript
