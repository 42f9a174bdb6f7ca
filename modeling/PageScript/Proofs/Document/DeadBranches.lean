import PageScript.Proofs.Document.Stepwise
import PageScript.Proofs.Token.Faults
import PageScript.Proofs.Token.Shape
/-!
# Branches that are never taken

The scanner and the reader of documents are on their guard against more than a page can bring
about: a token asked for behind the end of the page, a token of a tag among text or a tag opening
inside a tag, an end tag that finds a level without a loop above that of the page.

None of it happens, because three things are so in front of every token: the scanner is under
the rules of the place where the token is asked for, it has not come to the end of the page, and
of the open levels the page alone has no loop around it.  Then a token is one of those that its
place knows what to do with.
-/

namespace PageScript

/-- The failures that are told where something is found that no page brings about. -/
inductive SyntaxError.IsDefensive : SyntaxError → Prop
  /-- A token is asked for behind the end of the page. -/
  | pastEnd : IsDefensive (.lexical .pastEnd)
  /-- A character outside tags is no text. -/
  | unexpectedText (found : Char) (offset : Nat) :
      IsDefensive (.lexical (.unexpectedChar found offset .text))
  /-- A token between tags belongs inside a tag. -/
  | strayToken (found : Token.Kind) : IsDefensive (.strayToken found)
  /-- A token inside a tag belongs outside tags. -/
  | notAnElement (found : Token.Kind) : IsDefensive (.malformedLoop (.notAnElement found))

/-- The tokens that the rules of a mode give. -/
inductive Token.Fits : Mode → Token → Prop
  | endOfInput (mode : Mode) : Fits mode .endOfInput
  | text (run : String) : Fits .text (.text run)
  | tagOpen : Fits .text .tagOpen
  | tagClose : Fits .tag .tagClose
  | element (e : Element) : Fits .tag e.token

/-! ## The scanner -/

namespace Scanner

variable {s t : Scanner} {token : Token} {fault : LexError} {e : SyntaxError}
  {input rest : List Char}

lemma fits_of_readTag (h : s.readTag input = (.ok token, rest)) : token.Fits .tag := by
  cases readsInTag_of_readTag h with
  | endOfInput => exact .endOfInput _
  | equals | name => exact .element (.variable _)
  | number => exact .element (.number _)
  | operator => exact .element (.operator _)
  | function => exact .element (.function _)
  | string => exact .element (.string _)
  | tagClose => exact .tagClose

/-- What a scanner gives is what its rules know. -/
lemma fits_of_take (h : s.take = .ok (token, t)) : token.Fits s.mode := by
  cases takes_of_take h with
  | endOfPage => exact .endOfInput _
  | tagOpen hmode => exact hmode ▸ .tagOpen
  | text hmode => exact hmode ▸ .text _
  | inTag hmode hread => exact hmode ▸ fits_of_readTag hread

lemma exists_next_of_take_error (h : s.take = .error e) :
    ∃ fault t, s.next = (.error fault, t) ∧ e = .lexical fault := by
  unfold take at h
  split at h
  · cases h
  · next fault t hnext => exact ⟨fault, t, hnext, (Except.error.inj h).symm⟩

/-- Outside tags every character that is no backslash is text. -/
lemma ne_unexpectedChar_of_text (h : s.next = (.error fault, t)) (hmode : s.mode = .text)
    (found : Char) (offset : Nat) (mode : Mode) : fault ≠ .unexpectedChar found offset mode := by
  rcases next_eq_error h with ⟨-, rfl, -⟩ | ⟨hread, -⟩
  · simp
  rw [read, hmode] at hread
  dsimp only at hread
  split at hread
  · cases (Prod.mk.inj hread).1
  · obtain ⟨place, -, rfl⟩ := readText_eq_error hread
    simp

/-- A scanner that has not come to the end fails for a fault of the page. -/
lemma not_isDefensive_of_take (h : s.take = .error e) (hwithin : s.Within)
    (hlast : s.last ≠ some .endOfInput) : ¬ e.IsDefensive := by
  obtain ⟨fault, t, hnext, rfl⟩ := exists_next_of_take_error h
  have hpoints := hwithin.next_error hnext
  intro hdefensive
  cases hdefensive with
  | pastEnd => exact hlast hpoints
  | unexpectedText found offset =>
    obtain ⟨-, -, hmode⟩ := hpoints
    exact ne_unexpectedChar_of_text hnext hmode.symm found offset .text rfl

end Scanner

/-! ## Failures of a step -/

/-- The failures of a step for which a page is to blame, where these levels are open. -/
inductive SyntaxError.IsGenuine (stack : List Frame) : SyntaxError → Prop
  | lexical {fault : LexError} (h : ¬ IsDefensive (.lexical fault)) :
      IsGenuine stack (.lexical fault)
  | missingTagName (found : Token.Kind) : IsGenuine stack (.missingTagName found)
  | unknownTag (name : String) : IsGenuine stack (.unknownTag name)
  | malformedLoop {fault : LoopFault} (h : ∀ found, fault ≠ .notAnElement found) :
      IsGenuine stack (.malformedLoop fault)
  | expectedTagClose (found : Token.Kind) : IsGenuine stack (.expectedTagClose found)
  | unterminatedTag : IsGenuine stack .unterminatedTag
  /-- There is nothing for an end tag to close. -/
  | unbalancedEnd (h : Frame.close stack = .error .unbalancedEnd) : IsGenuine stack .unbalancedEnd
  | unclosedLoops (count : Nat) : IsGenuine stack (.unclosedLoops count)

namespace SyntaxError.IsGenuine

variable {stack : List Frame} {e : SyntaxError}

lemma not_isDefensive (h : e.IsGenuine stack) : ¬ e.IsDefensive := by
  intro hdefensive
  cases hdefensive with
  | pastEnd =>
    cases h with
    | lexical h => exact h .pastEnd
  | unexpectedText found offset =>
    cases h with
    | lexical h => exact h (.unexpectedText found offset)
  | strayToken found => cases h
  | notAnElement found =>
    cases h with
    | malformedLoop h => exact h found rfl

lemma close_eq (h : IsGenuine stack .unbalancedEnd) :
    Frame.close stack = .error .unbalancedEnd := by
  cases h with
  | unbalancedEnd h => exact h

end SyntaxError.IsGenuine

namespace Reader

variable {r r' : Reader} {token : Token} {s : Scanner} {e : SyntaxError} {stack : List Frame}

lemma isGenuine_of_operandOf (h : operandOf token = .error e) (htoken : token.Fits .tag) :
    e.IsGenuine stack := by
  cases htoken with
  | endOfInput =>
    cases h
    exact .unterminatedTag
  | tagClose => cases h
  | element element =>
    cases element with
    | function name =>
      cases h
      exact .malformedLoop (by simp)
    | number | string | «variable» => cases h
    | operator =>
      cases h
      exact .malformedLoop (by simp)

lemma isGenuine_of_expectClose (h : expectClose token = .error e) : e.IsGenuine stack := by
  cases token with
  | tagClose => cases h
  | endOfInput =>
    cases h
    exact .unterminatedTag
  | text | tagOpen | name | number | string | operator | function =>
    cases h
    exact .expectedTagClose _

/-- With a token that the rules of its place give, a reader fails only for what is on the page. -/
lemma isGenuine_of_advance (h : r.advance token s = .error e) (htoken : token.Fits r.place.mode) :
    e.IsGenuine r.stack := by
  obtain ⟨scanner, stack, place⟩ := r
  cases place with
  | document =>
    cases htoken with
    | endOfInput =>
      simp only [advance, Frame.finish] at h
      split_ifs at h
      · cases h
        exact .unclosedLoops _
      · cases h
    | text | tagOpen => cases h
  | tagName =>
    cases token with
    | name name =>
      simp only [advance] at h
      split_ifs at h
      cases h
      exact .unknownTag name
    | text | tagOpen | tagClose | number | string | operator | function | endOfInput =>
      cases h
      exact .missingTagName _
  | elements done =>
    cases htoken with
    | endOfInput =>
      cases h
      exact .unterminatedTag
    | tagClose => cases h
    | element element => cases element <;> cases h
  | loopVariable =>
    cases token with
    | name name =>
      simp only [advance] at h
      split_ifs at h
      cases h
      exact .malformedLoop (by simp)
    | text | tagOpen | tagClose | number | string | operator | function | endOfInput =>
      cases h
      exact .malformedLoop (by simp)
  | loopStart name | loopStop name start =>
    rcases bind_eq_error_iff.1 h with h | ⟨value, -, h⟩
    · exact isGenuine_of_operandOf h htoken
    · cases value <;> cases h
      exact .malformedLoop (by simp)
  | loopStep name start stop =>
    rcases bind_eq_error_iff.1 h with h | ⟨value, -, h⟩
    · exact isGenuine_of_operandOf h htoken
    · cases value <;> cases h
  | loopClose header =>
    rcases bind_eq_error_iff.1 h with h | ⟨-, -, h⟩
    · exact isGenuine_of_expectClose h
    · cases h
  | endClose =>
    rcases bind_eq_error_iff.1 h with h | ⟨-, -, h⟩
    · exact isGenuine_of_expectClose h
    rcases bind_eq_error_iff.1 h with h | ⟨stack, -, h⟩
    · obtain rfl := Frame.eq_unbalancedEnd_of_close h
      exact .unbalancedEnd h
    · cases h

/-! ## What holds in front of every token -/

/-- A reader in good order. -/
structure Sound (r : Reader) : Prop where
  /-- The rules of the place are in force. -/
  mode_eq : r.scanner.mode = r.place.mode
  within : r.scanner.Within
  /-- There is something left to ask for. -/
  last_ne : r.scanner.last ≠ some .endOfInput
  /-- Of the open levels, the page alone has no loop around it. -/
  levels : ∃ loops done, r.stack = Frame.ofLoops loops done

lemma sound_start (page : List Char) : (start page).Sound :=
  ⟨rfl, Scanner.within_ofSource page, by simp [start, Scanner.ofSource], [], [], rfl⟩

lemma Restacks.exists_ofLoops {stack stack' : List Frame} (h : Restacks stack stack')
    (hlevels : ∃ loops done, stack = Frame.ofLoops loops done) :
    ∃ loops done, stack' = Frame.ofLoops loops done := by
  obtain ⟨loops, done, rfl⟩ := hlevels
  generalize hstack : Frame.ofLoops loops done = stack at h
  cases h with
  | same => exact ⟨loops, done, hstack.symm⟩
  | append node => exact ⟨loops, node :: done, by rw [← hstack, Frame.append_ofLoops]⟩
  | loopStart header => exact ⟨(header, done) :: loops, [], by rw [← hstack]; rfl⟩
  | loopEnd hclose =>
    subst hstack
    cases loops with
    | nil => cases hclose
    | cons loop loops =>
      rw [Frame.close_ofLoops_cons] at hclose
      exact ⟨loops, _, (Except.ok.inj hclose).symm⟩

lemma Sound.step (h : r.Sound) (hstep : r.step = .ok (.inl r')) : r'.Sound := by
  obtain ⟨token, s, htake, hmoves⟩ := exists_take_of_step hstep
  have hmode : s.mode = r.place.mode := (Scanner.take_mode htake).trans h.mode_eq
  have hwithin : s.Within := by simpa [Scanner.take_eq_ok_iff.1 htake] using h.within.next
  have hlast : s.last ≠ some .endOfInput := by
    rw [Scanner.take_last htake]
    simpa using hmoves.token_ne
  have hlevels := hmoves.restacks.exists_ofLoops h.levels
  -- Either the rules stay as they are, and the new place has them too, or those of the new place
  -- have been put in force.
  rcases hmoves.scanner with ⟨hscanner, hplace⟩ | hscanner
  · exact ⟨by rw [hscanner, hmode, hplace], hscanner ▸ hwithin, hscanner ▸ hlast, hlevels⟩
  · exact ⟨by rw [hscanner, Scanner.setMode_mode], hscanner ▸ hwithin, hscanner ▸ hlast, hlevels⟩

/-- A reader in good order fails only for what is on the page. -/
lemma Sound.isGenuine (h : r.Sound) (hstep : r.step = .error e) : e.IsGenuine r.stack := by
  rcases bind_eq_error_iff.1 hstep with htake | ⟨⟨token, s⟩, htake, hadvance⟩
  · obtain ⟨fault, t, -, rfl⟩ := Scanner.exists_next_of_take_error htake
    exact .lexical (Scanner.not_isDefensive_of_take htake h.within h.last_ne)
  · exact isGenuine_of_advance hadvance (h.mode_eq ▸ Scanner.fits_of_take htake)

/-! ## Whole runs -/

/-- A number of steps lead from one reader to the other. -/
def Reaches : Reader → Reader → Prop := Relation.ReflTransGen fun r r' => r.step = .ok (.inl r')

lemma Sound.of_reaches (h : r.Sound) (hr : Reaches r r') : r'.Sound := by
  induction hr with
  | refl => exact h
  | tail _ hstep ih => exact ih.step hstep

/-- A run is as good as its rest. -/
lemma Reaches.run_eq (hr : Reaches r r') : r.run = r'.run := by
  induction hr with
  | refl => rfl
  | tail _ hstep ih =>
    rw [ih, Reader.run_eq, hstep]
    rfl

/-- Where a run fails, one of its steps fails. -/
lemma exists_reaches_of_run (h : r.run = .error e) : ∃ r', Reaches r r' ∧ r'.step = .error e := by
  fun_induction run r with
  | case1 r e' hstep =>
    obtain rfl := Except.error.inj h
    exact ⟨r, .refl, hstep⟩
  | case2 r r' hstep ih =>
    obtain ⟨r'', hreaches, hfails⟩ := ih h
    exact ⟨r'', hreaches.head hstep, hfails⟩
  | case3 r d hstep => cases h

/-- In front of every token of every page, the scanner is under the rules of the place where the
token is asked for, and of the open levels the one at the bottom alone has no loop around it.  No
page is refused for anything but what is on it, and an end tag is refused only where no loop is
open. -/
theorem run_guarded (page : List Char) :
    (∀ r, Reaches (start page) r →
      r.run = Document.read page ∧
        r.scanner.mode = r.place.mode ∧
        (∃ headers : List LoopHeader, r.stack.map Frame.header = headers.map some ++ [none]) ∧
        ∀ e, r.step = .error e →
          ¬ e.IsDefensive ∧ (e = .unbalancedEnd → r.stack.map Frame.header = [none])) ∧
      ∀ e, Document.read page = .error e →
        ¬ e.IsDefensive ∧ ∃ r, Reaches (start page) r ∧ r.step = .error e := by
  refine ⟨fun r hr => ?_, fun e he => ?_⟩
  · have hsound := (sound_start page).of_reaches hr
    obtain ⟨loops, done, hstack⟩ := hsound.levels
    refine ⟨hr.run_eq.symm.trans (run_start page), hsound.mode_eq,
      ⟨loops.map Prod.fst, ?_⟩, ?_⟩
    · rw [hstack, Frame.map_header_ofLoops]
    · intro e hstep
      have hgenuine := hsound.isGenuine hstep
      refine ⟨hgenuine.not_isDefensive, ?_⟩
      rintro rfl
      have hclose := hgenuine.close_eq
      rw [hstack] at hclose ⊢
      cases loops with
      | nil => rfl
      | cons loop loops =>
        rw [Frame.close_ofLoops_cons] at hclose
        cases hclose
  · obtain ⟨r, hr, hstep⟩ := exists_reaches_of_run ((run_start page).trans he)
    exact ⟨(((sound_start page).of_reaches hr).isGenuine hstep).not_isDefensive, r, hr, hstep⟩

/-- A page with an end tag too many. -/
def overclosedPage : List Char := "a\x7b$END$\x7d".toList

/-- The end tag too many is met where no loop is open. -/
theorem run_guarded_overclosedPage :
    Document.read overclosedPage = .error .unbalancedEnd ∧
      ∃ r, Reaches (start overclosedPage) r ∧ r.step = .error .unbalancedEnd ∧
        r.scanner.mode = r.place.mode ∧ r.stack.map Frame.header = [none] := by
  have hread : Document.read overclosedPage = .error .unbalancedEnd := by cbv
  obtain ⟨hreached, hfailed⟩ := run_guarded overclosedPage
  obtain ⟨-, r, hr, hstep⟩ := hfailed _ hread
  obtain ⟨-, hmode, -, herror⟩ := hreached r hr
  exact ⟨hread, r, hr, hstep, hmode, (herror _ hstep).2 rfl⟩

end Reader

end PageScript
