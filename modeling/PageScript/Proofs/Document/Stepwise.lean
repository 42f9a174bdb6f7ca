import PageScript.Proofs.Document.Accepted
/-!
# Reading documents token by token

The reader of documents asks its scanner for tokens from several places: between tags, for the name
of a tag, and in each kind of tag.  Here it is taken apart into steps, one for each token, with all
that it checks on the way.  The levels of the page that are open stand on a stack, the
innermost on top; the page itself is the level at the bottom, and the only one without a loop
around it.

The steps make of a page what the reader makes of it.
-/

namespace PageScript

/-! ## Levels -/

/-- A level of a page: the opening tag of the loop around it, and its nodes so far, reversed. -/
structure Frame where
  /-- There is no loop around the page itself. -/
  header : Option LoopHeader
  nodes : List Node

namespace Frame

/-- Puts a node behind those of the innermost level. -/
def append (node : Node) : List Frame → List Frame
  | [] => []
  | ⟨header, nodes⟩ :: rest => ⟨header, node :: nodes⟩ :: rest

/-- Closes the innermost loop, which becomes a node of the level around it. -/
def close (stack : List Frame) : Except SyntaxError (List Frame) :=
  if stack.length < 2 then .error .unbalancedEnd
  else
    match stack with
    | ⟨some header, nodes⟩ :: rest => .ok (append (.loop header nodes.reverse) rest)
    | _ => .error .unbalancedEnd

/-- What a tag does to the levels of a page. -/
def withTag : Tag → List Frame → Except SyntaxError (List Frame)
  | .echo elements, stack => .ok (append (.echo elements) stack)
  | .loopStart header, stack => .ok (⟨some header, []⟩ :: stack)
  | .loopEnd, stack => close stack

/-- Ends the page, where no level may be open but that of the page. -/
def finish (stack : List Frame) : Except SyntaxError Document :=
  if stack.length - 1 ≠ 0 then .error (.unclosedLoops (stack.length - 1))
  else .ok (stack.head?.elim [] fun frame => frame.nodes.reverse)

/-- The levels of a page with these open loops, where `done` are the nodes of the innermost. -/
def ofLoops : List OpenLoop → List Node → List Frame
  | [], done => [⟨none, done⟩]
  | (header, before) :: loops, done => ⟨some header, done⟩ :: ofLoops loops before

@[simp] lemma length_ofLoops (loops : List OpenLoop) (done : List Node) :
    (ofLoops loops done).length = loops.length + 1 := by
  induction loops generalizing done with
  | nil => rfl
  | cons loop loops ih => simp [ofLoops, ih]

lemma map_header_ofLoops (loops : List OpenLoop) (done : List Node) :
    (ofLoops loops done).map header = (loops.map Prod.fst).map some ++ [none] := by
  induction loops generalizing done with
  | nil => rfl
  | cons loop loops ih => simp [ofLoops, ih]

lemma append_ofLoops (node : Node) (loops : List OpenLoop) (done : List Node) :
    append node (ofLoops loops done) = ofLoops loops (node :: done) := by
  cases loops <;> rfl

lemma finish_ofLoops (loops : List OpenLoop) (done : List Node) :
    finish (ofLoops loops done) =
      if loops.isEmpty then .ok done.reverse else .error (.unclosedLoops loops.length) := by
  cases loops with
  | nil => rfl
  | cons loop loops => simp [finish]

lemma close_ofLoops_cons (header : LoopHeader) (before : List Node) (loops : List OpenLoop)
    (done : List Node) :
    close (ofLoops ((header, before) :: loops) done) =
      .ok (ofLoops loops (.loop header done.reverse :: before)) := by
  unfold close
  rw [if_neg (by simp), ← append_ofLoops]
  rfl

lemma eq_unbalancedEnd_of_close {stack : List Frame} {e : SyntaxError}
    (h : close stack = .error e) : e = .unbalancedEnd := by
  unfold close at h
  split at h
  · exact (Except.error.inj h).symm
  split at h
  · cases h
  · exact (Except.error.inj h).symm

end Frame

/-! ## Steps -/

/-- Where the next token is asked for. -/
inductive Place where
  /-- Between tags. -/
  | document
  /-- The name of a tag. -/
  | tagName
  /-- An echo tag, behind these elements, reversed. -/
  | elements (done : List Element)
  /-- The variable of a loop. -/
  | loopVariable
  /-- The first value of the variable. -/
  | loopStart (name : String)
  /-- The limit of a loop. -/
  | loopStop (name : String) (start : Element)
  /-- The step of a loop, in whose place the tag may be closed. -/
  | loopStep (name : String) (start stop : Element)
  /-- The closing of the opening tag of a loop. -/
  | loopClose (header : LoopHeader)
  /-- The closing of an end tag. -/
  | endClose

/-- The rules that belong to a place. -/
def Place.mode : Place → Mode
  | document => .text
  | tagName | elements _ | loopVariable | loopStart _ | loopStop .. | loopStep .. | loopClose _
  | endClose => .tag

/-- A reader of documents between two tokens. -/
structure Reader where
  scanner : Scanner
  /-- The levels that are open, innermost first. -/
  stack : List Frame
  place : Place

namespace Reader

/-- A reader in front of a page. -/
def start (page : List Char) : Reader := ⟨.ofSource page, [⟨none, []⟩], .document⟩

/-- A reader behind a tag. -/
def behindTag (s : Scanner) (stack : List Frame) : Reader := ⟨s.setMode .text, stack, .document⟩

/-- The value in the opening tag of a loop that a token stands for, if the tag is not closed
instead. -/
def operandOf : Token → Except SyntaxError (Option Element)
  | .tagClose => .ok none
  | .endOfInput => .error .unterminatedTag
  | .function name => .error (.malformedLoop (.functionOperand name))
  | token => do
    let element ← Element.ofToken token
    if element.isLoopOperand then .ok (some element)
    else .error (.malformedLoop (.badOperand element))

/-- Makes sure that a tag is closed. -/
def expectClose : Token → Except SyntaxError Unit
  | .tagClose => .ok ()
  | .endOfInput => .error .unterminatedTag
  | token => .error (.expectedTagClose token.kind)

/-- What becomes of a reader with a token, which leaves the scanner `s`: it goes on, or has read the
document. -/
def advance (r : Reader) (token : Token) (s : Scanner) : Except SyntaxError (Reader ⊕ Document) :=
  match r.place with
  | .document =>
    match token with
    | .endOfInput => (Frame.finish r.stack).map .inr
    | .text run => .ok (.inl ⟨s, Frame.append (.text run) r.stack, .document⟩)
    | .tagOpen => .ok (.inl ⟨s.setMode .tag, r.stack, .tagName⟩)
    | _ => .error (.strayToken token.kind)
  | .tagName =>
    match token with
    | .name name =>
      if name = "=" then .ok (.inl ⟨s, r.stack, .elements []⟩)
      else if Tag.upper name = "FOR".toList then .ok (.inl ⟨s, r.stack, .loopVariable⟩)
      else if Tag.upper name = "END".toList then .ok (.inl ⟨s, r.stack, .endClose⟩)
      else .error (.unknownTag name)
    | _ => .error (.missingTagName token.kind)
  | .elements done =>
    match token with
    | .tagClose => .ok (.inl (behindTag s (Frame.append (.echo done.reverse) r.stack)))
    | .endOfInput => .error .unterminatedTag
    | _ => do
      let element ← Element.ofToken token
      .ok (.inl ⟨s, r.stack, .elements (element :: done)⟩)
  | .loopVariable =>
    match token with
    | .name name =>
      if name = "=" then .error (.malformedLoop (.noVariable .name))
      else .ok (.inl ⟨s, r.stack, .loopStart name⟩)
    | _ => .error (.malformedLoop (.noVariable token.kind))
  | .loopStart name => do
    match ← operandOf token with
    | some start => .ok (.inl ⟨s, r.stack, .loopStop name start⟩)
    | none => .error (.malformedLoop .noStart)
  | .loopStop name start => do
    match ← operandOf token with
    | some stop => .ok (.inl ⟨s, r.stack, .loopStep name start stop⟩)
    | none => .error (.malformedLoop .noStop)
  | .loopStep name start stop => do
    match ← operandOf token with
    | some step => .ok (.inl ⟨s, r.stack, .loopClose ⟨name, start, stop, some step⟩⟩)
    -- The token in place of the step has closed the tag.
    | none => .ok (.inl (behindTag s (⟨some ⟨name, start, stop, none⟩, []⟩ :: r.stack)))
  | .loopClose header => do
    expectClose token
    .ok (.inl (behindTag s (⟨some header, []⟩ :: r.stack)))
  | .endClose => do
    expectClose token
    let stack ← Frame.close r.stack
    .ok (.inl (behindTag s stack))

/-- Asks for the next token and goes on with it. -/
def step (r : Reader) : Except SyntaxError (Reader ⊕ Document) := do
  let (token, s) ← r.scanner.take
  r.advance token s

/-- How a step may change the levels that are open. -/
inductive Restacks : List Frame → List Frame → Prop
  | same (stack : List Frame) : Restacks stack stack
  | append (node : Node) (stack : List Frame) : Restacks stack (Frame.append node stack)
  | loopStart (header : LoopHeader) (stack : List Frame) :
      Restacks stack (⟨some header, []⟩ :: stack)
  | loopEnd {stack stack' : List Frame} (h : Frame.close stack = .ok stack') : Restacks stack stack'

variable {r r' : Reader} {token : Token} {s : Scanner} {e : SyntaxError}

/-- What a reader that goes on has done: it has taken a token other than the end of the page, put
the rules of its new place in force if they are others, and changed its levels. -/
structure Moves (r : Reader) (token : Token) (s : Scanner) (r' : Reader) : Prop where
  token_ne : token ≠ .endOfInput
  scanner : r'.scanner = s ∧ r'.place.mode = r.place.mode ∨ r'.scanner = s.setMode r'.place.mode
  restacks : Restacks r.stack r'.stack

lemma Moves.stay {stack : List Frame} {scanner : Scanner} {place place' : Place}
    (hne : token ≠ .endOfInput) (hmode : place'.mode = place.mode) :
    Moves ⟨scanner, stack, place⟩ token s ⟨s, stack, place'⟩ :=
  ⟨hne, .inl ⟨rfl, hmode⟩, .same stack⟩

lemma Moves.behindTag {stack : List Frame} (hne : token ≠ .endOfInput)
    (hstack : Restacks r.stack stack) : Moves r token s (behindTag s stack) :=
  ⟨hne, .inr rfl, hstack⟩

lemma operandOf_ok_ne {value : Option Element} (h : operandOf token = .ok value) :
    token ≠ .endOfInput := by
  rintro rfl
  cases h

lemma expectClose_eq_ok {u : Unit} (h : expectClose token = .ok u) : token = .tagClose := by
  cases token with
  | tagClose => rfl
  | text | tagOpen | name | number | string | operator | function | endOfInput => cases h

lemma moves_of_advance (h : r.advance token s = .ok (.inl r')) : Moves r token s r' := by
  obtain ⟨scanner, stack, place⟩ := r
  cases place with
  | document =>
    cases token with
    | endOfInput =>
      simp only [advance] at h
      cases hfinish : Frame.finish stack <;> rw [hfinish] at h <;> cases h
    | text run =>
      cases h
      exact ⟨by simp, .inl ⟨rfl, rfl⟩, .append _ _⟩
    | tagOpen =>
      cases h
      exact ⟨by simp, .inr rfl, .same _⟩
    | tagClose | name | number | string | operator | function => cases h
  | tagName =>
    cases token with
    | name name =>
      simp only [advance] at h
      split_ifs at h <;> cases h <;> exact .stay (by simp) rfl
    | text | tagOpen | tagClose | number | string | operator | function | endOfInput => cases h
  | elements done =>
    cases token with
    | tagClose =>
      cases h
      exact .behindTag (by simp) (.append _ _)
    | text | tagOpen | endOfInput => cases h
    | name | number | string | operator | function =>
      cases h
      exact .stay (by simp) rfl
  | loopVariable =>
    cases token with
    | name name =>
      simp only [advance] at h
      split_ifs at h
      cases h
      exact .stay (by simp) rfl
    | text | tagOpen | tagClose | number | string | operator | function | endOfInput => cases h
  | loopStart name | loopStop name start =>
    obtain ⟨value, hvalue, h⟩ := bind_eq_ok_iff.1 h
    cases value with
    | none => cases h
    | some value =>
      cases h
      exact .stay (operandOf_ok_ne hvalue) rfl
  | loopStep name start stop =>
    obtain ⟨value, hvalue, h⟩ := bind_eq_ok_iff.1 h
    cases value with
    | none =>
      cases h
      exact .behindTag (operandOf_ok_ne hvalue) (.loopStart _ _)
    | some value =>
      cases h
      exact .stay (operandOf_ok_ne hvalue) rfl
  | loopClose header =>
    obtain ⟨u, hclose, h⟩ := bind_eq_ok_iff.1 h
    cases h
    exact .behindTag (by simp [expectClose_eq_ok hclose]) (.loopStart _ _)
  | endClose =>
    obtain ⟨u, hclose, h⟩ := bind_eq_ok_iff.1 h
    obtain ⟨stack', hstack, h⟩ := bind_eq_ok_iff.1 h
    cases h
    exact .behindTag (by simp [expectClose_eq_ok hclose]) (.loopEnd hstack)

lemma exists_take_of_step (h : r.step = .ok (.inl r')) :
    ∃ token s, r.scanner.take = .ok (token, s) ∧ Moves r token s r' := by
  obtain ⟨⟨token, s⟩, htake, h⟩ := bind_eq_ok_iff.1 h
  exact ⟨token, s, htake, moves_of_advance h⟩

/-- Every step takes something of the page. -/
lemma length_lt_of_step (h : r.step = .ok (.inl r')) :
    r'.scanner.rest.length < r.scanner.rest.length := by
  obtain ⟨token, s, htake, hmoves⟩ := exists_take_of_step h
  have hlt := Scanner.take_length_lt htake hmoves.token_ne
  rcases hmoves.scanner with ⟨hscanner, -⟩ | hscanner <;> rw [hscanner] <;> exact hlt

/-- Takes steps up to the end. -/
def run (r : Reader) : Except SyntaxError Document :=
  match _ : r.step with
  | .error e => .error e
  | .ok (.inl r') => run r'
  | .ok (.inr d) => .ok d
termination_by r.scanner.rest.length
decreasing_by exact length_lt_of_step ‹_›

lemma run_eq (r : Reader) : r.run = r.step >>= Sum.elim run .ok := by
  rw [run]
  split <;> simp_all [bind, Except.bind]

variable {stack : List Frame} {t : Scanner}

lemma run_of_take (h : s.take = .ok (token, t)) (place : Place) :
    run ⟨s, stack, place⟩ = advance ⟨s, stack, place⟩ token t >>= Sum.elim run .ok := by
  rw [run_eq, step, h]
  rfl

lemma run_of_take_error (h : s.take = .error e) (place : Place) :
    run ⟨s, stack, place⟩ = .error e := by
  rw [run_eq, step, h]
  rfl

/-! ## The steps of a tag -/

lemma readOperand_eq (s : Scanner) :
    Tag.readOperand s = s.take >>= fun p => operandOf p.1 >>= fun value => .ok (value, p.2) := by
  unfold Tag.readOperand
  cases s.take with
  | error e => rfl
  | ok p =>
    obtain ⟨token, t⟩ := p
    cases token with
    | name | number | string | operator =>
      simp only [operandOf, Element.ofToken, Element.ofToken?, bind, Except.bind]
      split <;> rfl
    | text | tagOpen | tagClose | function | endOfInput => rfl

lemma readClose_eq (s : Scanner) :
    Tag.readClose s = s.take >>= fun p => expectClose p.1 >>= fun _ => .ok p.2 := by
  unfold Tag.readClose
  cases s.take with
  | error e => rfl
  | ok p =>
    obtain ⟨token, t⟩ := p
    cases token <;> rfl

lemma run_elements (done : List Element) (s : Scanner) :
    run ⟨s, stack, .elements done⟩ =
      Tag.readElements done s >>= fun p =>
        run (behindTag p.2 (Frame.append (.echo p.1) stack)) := by
  fun_induction Tag.readElements done s with
  | case1 done s e htake => exact run_of_take_error htake _
  | case2 done s t htake => exact run_of_take htake _
  | case3 done s t htake => exact run_of_take htake _
  | case4 done s token t hclose hend htake e he =>
    rw [run_of_take htake]
    cases token with
    | tagClose => exact absurd rfl hclose
    | endOfInput => exact absurd rfl hend
    | text | tagOpen =>
      cases he
      rfl
    | name | number | string | operator | function => cases he
  | case5 done s token t hclose hend htake element he ih =>
    rw [run_of_take htake, ← ih]
    cases token with
    | tagClose | endOfInput | text | tagOpen => cases he
    | name | number | string | operator | function =>
      cases he
      rfl

/-- Where a value is asked for, it is asked for as `Tag.readOperand` does. -/
lemma run_operand {place : Place}
    {next : Option Element → Scanner → Except SyntaxError (Reader ⊕ Document)}
    (h : ∀ token t, advance ⟨s, stack, place⟩ token t = operandOf token >>= (next · t)) :
    run ⟨s, stack, place⟩ =
      Tag.readOperand s >>= fun p => next p.1 p.2 >>= Sum.elim run .ok := by
  rw [readOperand_eq, run_eq, step, bind_assoc, bind_assoc]
  congr 1
  funext p
  obtain ⟨token, t⟩ := p
  change advance _ token t >>= _ = _
  rw [h, bind_assoc, bind_assoc]
  rfl

lemma requireOperand_eq (fault : LoopFault) (s : Scanner) :
    Tag.requireOperand fault s = Tag.readOperand s >>= fun p =>
      p.1.elim (.error (.malformedLoop fault)) fun element => .ok (element, p.2) := by
  unfold Tag.requireOperand
  rcases Tag.readOperand s with e | ⟨_ | element, t⟩ <;> rfl

/-- Where a value must stand, it is asked for as `Tag.requireOperand` does. -/
lemma run_required {place : Place} {fault : LoopFault} {following : Element → Place}
    {next : Option Element → Scanner → Except SyntaxError (Reader ⊕ Document)}
    (h : ∀ token t, advance ⟨s, stack, place⟩ token t = operandOf token >>= (next · t))
    (hnone : ∀ t, next none t = .error (.malformedLoop fault))
    (hsome : ∀ element t, next (some element) t = .ok (.inl ⟨t, stack, following element⟩)) :
    run ⟨s, stack, place⟩ = Tag.requireOperand fault s >>= fun p =>
      run ⟨p.2, stack, following p.1⟩ := by
  rw [run_operand h, requireOperand_eq, bind_assoc]
  congr 1
  funext p
  obtain ⟨value, t⟩ := p
  cases value with
  | none => rw [hnone]; rfl
  | some element => rw [hsome]; rfl

lemma run_loopStart (name : String) (s : Scanner) :
    run ⟨s, stack, .loopStart name⟩ = Tag.requireOperand .noStart s >>= fun p =>
      run ⟨p.2, stack, .loopStop name p.1⟩ :=
  run_required (fun _ _ => rfl) (fun _ => rfl) fun _ _ => rfl

lemma run_loopStop (name : String) (start : Element) (s : Scanner) :
    run ⟨s, stack, .loopStop name start⟩ = Tag.requireOperand .noStop s >>= fun p =>
      run ⟨p.2, stack, .loopStep name start p.1⟩ :=
  run_required (fun _ _ => rfl) (fun _ => rfl) fun _ _ => rfl

lemma run_loopClose (header : LoopHeader) (s : Scanner) :
    run ⟨s, stack, .loopClose header⟩ =
      Tag.readClose s >>= fun t => run (behindTag t (⟨some header, []⟩ :: stack)) := by
  rw [readClose_eq, run_eq, step, bind_assoc, bind_assoc]
  congr 1
  funext p
  obtain ⟨token, t⟩ := p
  rw [bind_assoc]
  exact bind_assoc _ _ _

lemma run_endClose (s : Scanner) :
    run ⟨s, stack, .endClose⟩ =
      Tag.readClose s >>= fun t => Frame.close stack >>= fun stack => run (behindTag t stack) := by
  rw [readClose_eq, run_eq, step, bind_assoc, bind_assoc]
  congr 1
  funext p
  obtain ⟨token, t⟩ := p
  change advance _ token t >>= _ = _
  simp only [advance, bind_assoc]
  rfl

lemma run_loopStep (name : String) (start stop : Element) (s : Scanner) :
    run ⟨s, stack, .loopStep name start stop⟩ = Tag.readOperand s >>= fun p =>
      p.1.elim (run (behindTag p.2 (⟨some ⟨name, start, stop, none⟩, []⟩ :: stack))) fun step =>
        run ⟨p.2, stack, .loopClose ⟨name, start, stop, some step⟩⟩ := by
  rw [run_operand fun _ _ => rfl]
  congr 1
  funext p
  obtain ⟨value, t⟩ := p
  cases value <;> rfl

lemma run_loopVariable (s : Scanner) :
    run ⟨s, stack, .loopVariable⟩ = Tag.readVariable s >>= fun p =>
      run ⟨p.2, stack, .loopStart p.1⟩ := by
  rw [run_eq, step, bind_assoc]
  unfold Tag.readVariable
  rcases s.take with e | ⟨token, t⟩
  · rfl
  cases token with
  | name name =>
    change advance _ _ _ >>= _ = _
    simp only [advance]
    split_ifs <;> rfl
  | text | tagOpen | tagClose | number | string | operator | function | endOfInput => rfl

lemma run_header (s : Scanner) :
    run ⟨s, stack, .loopVariable⟩ =
      Tag.readHeader s >>= fun p => run (behindTag p.2 (⟨some p.1, []⟩ :: stack)) := by
  simp only [run_loopVariable, run_loopStart, run_loopStop, run_loopStep, run_loopClose,
    Tag.readHeader, bind_assoc]
  congr! 7
  funext p
  obtain ⟨value, t⟩ := p
  cases value with
  | none => rfl
  | some step =>
    simp only [Option.elim_some, bind_assoc]
    rfl

/-- The steps of a tag are those of `Tag.read`. -/
lemma run_tag (s : Scanner) :
    run ⟨s, stack, .tagName⟩ = Tag.read s >>= fun p =>
      Frame.withTag p.1 stack >>= fun stack => run (behindTag p.2 stack) := by
  rw [run_eq, step, bind_assoc]
  unfold Tag.read
  rcases s.take with e | ⟨token, t⟩
  · rfl
  cases token with
  | name name =>
    change advance _ _ _ >>= _ = _
    simp only [advance]
    split_ifs
    · rw [bind_assoc]
      exact run_elements [] t
    · rw [bind_assoc]
      exact run_header t
    · rw [bind_assoc]
      exact run_endClose t
    · rfl
  | text | tagOpen | tagClose | number | string | operator | function | endOfInput => rfl

/-! ## The steps of a page -/

lemma run_tagOpen (h : s.take = .ok (.tagOpen, t)) :
    run ⟨s, stack, .document⟩ = Tag.read (t.setMode .tag) >>= fun p =>
      Frame.withTag p.1 stack >>= fun stack => run (behindTag p.2 stack) :=
  (run_of_take h _).trans (run_tag _)

/-- The steps from between two tags are those of `Document.readFrom`.  The induction is on its
recursion, which takes a whole tag at a time. -/
lemma run_document (loops : List OpenLoop) (done : List Node) (s : Scanner) :
    run ⟨s, Frame.ofLoops loops done, .document⟩ = Document.readFrom loops done s := by
  fun_induction Document.readFrom loops done s with
  | case1 loops done s e htake => exact run_of_take_error htake _
  | case2 loops done s t htake hloops =>
    rw [run_of_take htake, advance, Frame.finish_ofLoops, if_pos hloops]
    rfl
  | case3 loops done s t htake hloops =>
    rw [run_of_take htake, advance, Frame.finish_ofLoops, if_neg hloops]
    rfl
  | case4 loops done s run t htake ih =>
    rw [run_of_take htake, ← ih, ← Frame.append_ofLoops]
    rfl
  | case5 loops done s t htake e hread =>
    rw [run_tagOpen htake, hread]
    rfl
  | case6 loops done s t htake elements v hread ih =>
    rw [run_tagOpen htake, hread, ← ih, ← Frame.append_ofLoops]
    rfl
  | case7 loops done s t htake header v hread ih =>
    rw [run_tagOpen htake, hread, ← ih]
    rfl
  | case8 done s t htake v hread =>
    rw [run_tagOpen htake, hread]
    rfl
  | case9 done s t htake v hread header before loops ih =>
    simp only [List.unattach_reverse, List.unattach_attach] at ih
    rw [run_tagOpen htake, hread, ← ih]
    change Frame.close _ >>= _ = _
    rw [Frame.close_ofLoops_cons]
    rfl
  | case10 loops done s token t hend htext hopen htake =>
    rw [run_of_take htake]
    cases token with
    | endOfInput => exact absurd rfl hend
    | text run => exact absurd rfl (htext run)
    | tagOpen => exact absurd rfl hopen
    | tagClose | name | number | string | operator | function => rfl

/-- Token by token, a page is read as the document that it is read as, or fails in the same way. -/
theorem run_start (page : List Char) : (start page).run = Document.read page :=
  run_document [] [] (.ofSource page)

end Reader

end PageScript
