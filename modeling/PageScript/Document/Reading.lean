import PageScript.Document
import PageScript.Token.Progress
/-!
# Reading documents

The reader asks a scanner for one token after another.  It puts the scanner in tag mode after
a tag opening and back in text mode after the tag, so the scanner never sees more of a page than
its tokens require.  The loops that are open wait on a stack, each with the nodes that stand
before it; an end tag closes the innermost one.
-/

namespace PageScript

/-- What is wrong with the opening tag of a loop. -/
inductive LoopFault where
  /-- There is another token in place of the loop variable. -/
  | noVariable (found : Token.Kind)
  /-- The tag ends before the first value. -/
  | noStart
  /-- The tag ends before the limit. -/
  | noStop
  /-- A function stands in place of a value. -/
  | functionOperand (name : String)
  /-- An operator stands in place of a value. -/
  | badOperand (element : Element)
  /-- A token is no element at all. -/
  | notAnElement (found : Token.Kind)
deriving DecidableEq

/-- Why a page is no document. -/
inductive SyntaxError where
  /-- A token cannot be read. -/
  | lexical (error : LexError)
  /-- A token outside tags is neither text nor a tag opening. -/
  | strayToken (found : Token.Kind)
  /-- A tag does not begin with its name. -/
  | missingTagName (found : Token.Kind)
  /-- There is no tag of this name. -/
  | unknownTag (name : String)
  /-- The opening tag of a loop is malformed. -/
  | malformedLoop (fault : LoopFault)
  /-- Another token stands where the tag should be closed. -/
  | expectedTagClose (found : Token.Kind)
  /-- The page ends inside a tag. -/
  | unterminatedTag
  /-- An end tag stands where no loop is open. -/
  | unbalancedEnd
  /-- The page ends inside loops. -/
  | unclosedLoops (count : Nat)
deriving DecidableEq

/-- The wording of what is wrong with the opening tag of a loop. -/
def LoopFault.message : LoopFault → String
  | noVariable found => "expected a variable name, found " ++ found.label
  | noStart => "missing start expression"
  | noStop => "missing end expression"
  | functionOperand name => "function '@" ++ name ++ "' is not allowed here"
  | badOperand element =>
    "'" ++ String.ofList element.text ++ "' is not a variable, number or string"
  | notAnElement found => "an element cannot be built from " ++ found.label

/-- The wording of a syntax error. -/
def SyntaxError.message : SyntaxError → String
  | lexical error => error.message
  | strayToken found | missingTagName found =>
    "a tag must begin with a tag name, found " ++ found.label
  | unknownTag name => "unrecognized tag '" ++ name ++ "'"
  | malformedLoop fault => "FOR tag: " ++ fault.message
  | expectedTagClose found => "expected tag close '$\x7d', found " ++ found.label
  | unterminatedTag => "tag is never closed"
  | unbalancedEnd => "END tag without a matching open FOR tag"
  | unclosedLoops n => toString n ++ " FOR tag(s) left open at end of input"

/-- The element that a token of a tag stands for. -/
def Element.ofToken? : Token → Option Element
  | .name s => some (.variable s)
  | .number n => some (.number n)
  | .string s => some (.string s)
  | .operator c => some (.operator c)
  | .function s => some (.function s)
  | .text _ | .tagOpen | .tagClose | .endOfInput => none

/-- The element that a token stands for, or the failure that names the kind of the token. -/
def Element.ofToken (token : Token) : Except SyntaxError Element :=
  match ofToken? token with
  | some element => .ok element
  | none => .error (.malformedLoop (.notAnElement token.kind))

namespace Scanner

/-- Reads the next token for the reader of documents. -/
def take (s : Scanner) : Except SyntaxError (Token × Scanner) :=
  match s.next with
  | (.ok token, t) => .ok (token, t)
  | (.error e, _) => .error (.lexical e)

theorem take_suffix {s t : Scanner} {token : Token} (h : s.take = .ok (token, t)) :
    t.rest <:+ s.rest := by
  unfold take at h
  split at h
  · next hn =>
    simp only [Except.ok.injEq, Prod.mk.injEq] at h
    have := next_suffix s
    rw [hn] at this
    exact h.2 ▸ this
  · simp at h

theorem take_length_lt {s t : Scanner} {token : Token} (h : s.take = .ok (token, t))
    (ht : token ≠ .endOfInput) : t.rest.length < s.rest.length := by
  unfold take at h
  split at h
  · next hn =>
    simp only [Except.ok.injEq, Prod.mk.injEq] at h
    obtain ⟨rfl, rfl⟩ := h
    exact next_length_lt hn ht
  · simp at h

end Scanner

/-- A tag, read: an echo tag, the opening tag of a loop, or an end tag. -/
inductive Tag where
  /-- Writes the values of its elements. -/
  | echo (elements : List Element)
  /-- Opens a loop. -/
  | loopStart (header : LoopHeader)
  /-- Closes the innermost open loop. -/
  | loopEnd
deriving DecidableEq

namespace Tag

/-- Reads the closing of a tag. -/
def readClose (s : Scanner) : Except SyntaxError Scanner :=
  match s.take with
  | .error e => .error e
  | .ok (.tagClose, s) => .ok s
  | .ok (.endOfInput, _) => .error .unterminatedTag
  | .ok (token, _) => .error (.expectedTagClose token.kind)

/-- Reads the elements of an echo tag and its closing, after `done`, which is reversed. -/
def readElements (done : List Element) (s : Scanner) :
    Except SyntaxError (List Element × Scanner) :=
  match _ : s.take with
  | .error e => .error e
  | .ok (.tagClose, t) => .ok (done.reverse, t)
  | .ok (.endOfInput, _) => .error .unterminatedTag
  | .ok (token, t) =>
    match _ : Element.ofToken token with
    | .error e => .error e
    | .ok element => readElements (element :: done) t
termination_by s.rest.length
decreasing_by
  have he : Element.ofToken token = .ok element := ‹_›
  have ht : token ≠ .endOfInput := by
    rintro rfl
    simp [Element.ofToken, Element.ofToken?] at he
  exact Scanner.take_length_lt ‹_› ht

/-- Reads a value in the opening tag of a loop; there is none if the tag is closed instead. -/
def readOperand (s : Scanner) : Except SyntaxError (Option Element × Scanner) :=
  match s.take with
  | .error e => .error e
  | .ok (.tagClose, s) => .ok (none, s)
  | .ok (.endOfInput, _) => .error .unterminatedTag
  | .ok (.function name, _) => .error (.malformedLoop (.functionOperand name))
  | .ok (token, s) =>
    match Element.ofToken token with
    | .error e => .error e
    | .ok element =>
      if element.isLoopOperand then .ok (some element, s)
      else .error (.malformedLoop (.badOperand element))

/-- Reads a value that must be there. -/
def requireOperand (fault : LoopFault) (s : Scanner) : Except SyntaxError (Element × Scanner) :=
  match readOperand s with
  | .error e => .error e
  | .ok (some element, s) => .ok (element, s)
  | .ok (none, _) => .error (.malformedLoop fault)

/-- Reads the loop variable, which any name can be. -/
def readVariable (s : Scanner) : Except SyntaxError (String × Scanner) :=
  match s.take with
  | .error e => .error e
  | .ok (.name name, s) =>
    if name = "=" then .error (.malformedLoop (.noVariable .name)) else .ok (name, s)
  | .ok (token, _) => .error (.malformedLoop (.noVariable token.kind))

/-- Reads the opening tag of a loop after its name.  Where the step is missing, the tag has been
closed in its place. -/
def readHeader (s : Scanner) : Except SyntaxError (LoopHeader × Scanner) := do
  let (name, s) ← readVariable s
  let (start, s) ← requireOperand .noStart s
  let (stop, s) ← requireOperand .noStop s
  match ← readOperand s with
  | (none, s) => .ok (⟨name, start, stop, none⟩, s)
  | (some step, s) =>
    let s ← readClose s
    .ok (⟨name, start, stop, some step⟩, s)

/-- A name with its ASCII letters in upper case. -/
def upper (name : String) : List Char := name.toList.map Char.toUpper

/-- Reads a tag after its opening; the scanner is in tag mode. -/
def read (s : Scanner) : Except SyntaxError (Tag × Scanner) :=
  match s.take with
  | .error e => .error e
  | .ok (.name name, s) =>
    if name = "=" then do
      let (elements, s) ← readElements [] s
      .ok (.echo elements, s)
    else if upper name = "FOR".toList then do
      let (header, s) ← readHeader s
      .ok (.loopStart header, s)
    else if upper name = "END".toList then do
      let s ← readClose s
      .ok (.loopEnd, s)
    else .error (.unknownTag name)
  | .ok (token, _) => .error (.missingTagName token.kind)

/-! What a tag leaves of the page is an end of what was there before it. -/

theorem readClose_suffix {s t : Scanner} (h : readClose s = .ok t) : t.rest <:+ s.rest := by
  unfold readClose at h
  split at h <;> simp only [reduceCtorEq, Except.ok.injEq] at h
  next hs => exact h ▸ Scanner.take_suffix hs

theorem readElements_suffix {done elements : List Element} {s t : Scanner}
    (h : readElements done s = .ok (elements, t)) : t.rest <:+ s.rest := by
  fun_induction readElements done s with
  | case1 | case3 | case4 => simp at h
  | case2 _ _ _ hs =>
    simp only [Except.ok.injEq, Prod.mk.injEq] at h
    exact h.2 ▸ Scanner.take_suffix hs
  | case5 _ _ _ _ _ _ hs _ _ ih => exact (ih h).trans (Scanner.take_suffix hs)

theorem readOperand_suffix {operand : Option Element} {s t : Scanner}
    (h : readOperand s = .ok (operand, t)) : t.rest <:+ s.rest := by
  unfold readOperand at h
  split at h
  · simp at h
  · next hs =>
    simp only [Except.ok.injEq, Prod.mk.injEq] at h
    exact h.2 ▸ Scanner.take_suffix hs
  · simp at h
  · simp at h
  · next hs =>
    split at h
    · simp at h
    · split at h
      · simp only [Except.ok.injEq, Prod.mk.injEq] at h
        exact h.2 ▸ Scanner.take_suffix hs
      · simp at h

theorem requireOperand_suffix {fault : LoopFault} {element : Element} {s t : Scanner}
    (h : requireOperand fault s = .ok (element, t)) : t.rest <:+ s.rest := by
  unfold requireOperand at h
  split at h
  · simp at h
  · next hs =>
    simp only [Except.ok.injEq, Prod.mk.injEq] at h
    exact h.2 ▸ readOperand_suffix hs
  · simp at h

theorem readVariable_suffix {name : String} {s t : Scanner}
    (h : readVariable s = .ok (name, t)) : t.rest <:+ s.rest := by
  unfold readVariable at h
  split at h
  · simp at h
  · next hs =>
    split at h
    · simp at h
    · simp only [Except.ok.injEq, Prod.mk.injEq] at h
      exact h.2 ▸ Scanner.take_suffix hs
  · simp at h

theorem readHeader_suffix {header : LoopHeader} {s t : Scanner}
    (h : readHeader s = .ok (header, t)) : t.rest <:+ s.rest := by
  unfold readHeader at h
  simp only [bind, Except.bind] at h
  split at h
  · simp at h
  next hv =>
  split at h
  · simp at h
  next hstart =>
  split at h
  · simp at h
  next hstop =>
  have before := (requireOperand_suffix hstop).trans
    ((requireOperand_suffix hstart).trans (readVariable_suffix hv))
  split at h
  · simp at h
  next hstep =>
  split at h
  · simp only [Except.ok.injEq, Prod.mk.injEq] at h
    exact h.2 ▸ (readOperand_suffix hstep).trans before
  · split at h
    · simp at h
    next hclose =>
    simp only [Except.ok.injEq, Prod.mk.injEq] at h
    exact h.2 ▸ (readClose_suffix hclose).trans ((readOperand_suffix hstep).trans before)

theorem read_suffix {tag : Tag} {s t : Scanner} (h : read s = .ok (tag, t)) :
    t.rest <:+ s.rest := by
  unfold read at h
  split at h
  · simp at h
  · next hs =>
    have first := Scanner.take_suffix hs
    simp only [bind, Except.bind] at h
    split at h
    · split at h
      · simp at h
      next hr =>
      simp only [Except.ok.injEq, Prod.mk.injEq] at h
      exact h.2 ▸ (readElements_suffix hr).trans first
    split at h
    · split at h
      · simp at h
      next hr =>
      simp only [Except.ok.injEq, Prod.mk.injEq] at h
      exact h.2 ▸ (readHeader_suffix hr).trans first
    split at h
    · split at h
      · simp at h
      next hr =>
      simp only [Except.ok.injEq, Prod.mk.injEq] at h
      exact h.2 ▸ (readClose_suffix hr).trans first
    · simp at h
  · simp at h

end Tag

/-- A loop that is open: its opening tag, and the nodes before it at its own level, reversed. -/
abbrev OpenLoop := LoopHeader × List Node

namespace Document

/-- Reads the rest of a page.  `loops` are the loops that are open, innermost first, and `done` are
the nodes that have been read inside the innermost one, reversed. -/
def readFrom (loops : List OpenLoop) (done : List Node) (s : Scanner) :
    Except SyntaxError Document :=
  match _ : s.take with
  | .error e => .error e
  | .ok (.endOfInput, _) =>
    if loops.isEmpty then .ok done.reverse else .error (.unclosedLoops loops.length)
  | .ok (.text run, t) => readFrom loops (.text run :: done) t
  | .ok (.tagOpen, t) =>
    match _ : Tag.read (t.setMode .tag) with
    | .error e => .error e
    | .ok (.echo elements, u) => readFrom loops (.echo elements :: done) (u.setMode .text)
    | .ok (.loopStart header, u) => readFrom ((header, done) :: loops) [] (u.setMode .text)
    | .ok (.loopEnd, u) =>
      match loops with
      | [] => .error .unbalancedEnd
      | (header, before) :: loops =>
        -- The loop is complete, so it becomes a node after those that stand before it.
        readFrom loops (.loop header done.reverse :: before) (u.setMode .text)
  | .ok (token, _) => .error (.strayToken token.kind)
termination_by s.rest.length
decreasing_by
  · exact Scanner.take_length_lt ‹_› (by simp)
  all_goals
    have hopen : t.rest.length < s.rest.length :=
      Scanner.take_length_lt (show s.take = .ok (.tagOpen, t) from ‹_›) (by simp)
    have htag : u.rest.length ≤ t.rest.length :=
      (Tag.read_suffix (s := t.setMode .tag) ‹_›).length_le
    exact Nat.lt_of_le_of_lt htag hopen

/-- Reads a page. -/
def read (page : List Char) : Except SyntaxError Document :=
  readFrom [] [] (Scanner.ofSource page)

end Document

end PageScript
