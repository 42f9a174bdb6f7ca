import PageScript.Proofs.Token.Reads
import Mathlib
/-!
# Any use of a scanner

Tokens may be asked for and the rules changed in any order, also after a failure and after the end
of the page.  The statements here say what holds of a scanner after any sequence of such calls: it
stands between two characters of the page and never goes back, every token takes at least a
byte, and the end of the page comes once and for all.

A failure may leave the scanner anywhere further on, so that what single tokens take cannot be
added up to the place reached.  The number of tokens is bounded by the bytes that are not left.
-/

namespace PageScript

/-! ## Bytes of a page -/

lemma byteSize_append (a b : List Char) : byteSize (a ++ b) = byteSize a + byteSize b := by
  induction a with
  | nil => simp [byteSize]
  | cons c a ih =>
    simp only [byteSize, List.cons_append, List.foldr_cons] at ih ⊢
    omega

lemma length_le_byteSize (a : List Char) : a.length ≤ byteSize a := by
  induction a with
  | nil => simp
  | cons c a ih =>
    have := c.utf8Size_pos
    simp only [byteSize, List.length_cons, List.foldr_cons] at ih ⊢
    omega

lemma utf8ByteSize_ofList (a : List Char) : (String.ofList a).utf8ByteSize = byteSize a := by
  induction a with
  | nil => simp [byteSize]
  | cons c a ih => simp [String.ofList_cons, ih, byteSize]

namespace Scanner

/-! ## Calls -/

/-- What may be asked of a scanner. -/
inductive Call where
  /-- To read the next token. -/
  | next
  /-- To go on under other rules. -/
  | setMode (mode : Mode)

/-- The outcomes of all that a sequence of calls reads, and the scanner after the last call. -/
def run (s : Scanner) : List Call → List (Except LexError Token) × Scanner
  | [] => ([], s)
  | .next :: calls => (s.next.1 :: (s.next.2.run calls).1, (s.next.2.run calls).2)
  | .setMode mode :: calls => (s.setMode mode).run calls

lemma run_next_of_eq {s t : Scanner} {outcome : Except LexError Token}
    (h : s.next = (outcome, t)) (calls : List Call) :
    s.run (.next :: calls) = (outcome :: (t.run calls).1, (t.run calls).2) := by
  rw [run, h]

/-- The tokens among outcomes, the end of the page included. -/
def tokensOf (outcomes : List (Except LexError Token)) : List Token :=
  outcomes.filterMap Except.toOption

@[simp] lemma tokensOf_nil : tokensOf [] = [] := rfl

@[simp] lemma tokensOf_cons_ok (token : Token) (outcomes : List (Except LexError Token)) :
    tokensOf (.ok token :: outcomes) = token :: tokensOf outcomes := rfl

@[simp] lemma tokensOf_cons_error (e : LexError) (outcomes : List (Except LexError Token)) :
    tokensOf (.error e :: outcomes) = tokensOf outcomes := rfl

/-- What no change of the rules and no reading breaks holds after all calls. -/
lemma run_invariant {P : Scanner → Prop} (hnext : ∀ s, P s → P s.next.2)
    (hmode : ∀ s mode, P s → P (s.setMode mode)) {s : Scanner} (h : P s) (calls : List Call) :
    P (s.run calls).2 := by
  induction calls generalizing s with
  | nil => exact h
  | cons c calls ih =>
    cases c with
    | next => exact ih (hnext s h)
    | setMode mode => exact ih (hmode s mode h)

/-! ## Places -/

@[simp] lemma next_source (s : Scanner) : s.next.2.source = s.source := by
  unfold next
  split
  · rfl
  · split <;> rfl

/-- A scanner stands in its page: what it has not read is an end of the page. -/
def Within (s : Scanner) : Prop := s.rest <:+ s.source

lemma within_ofSource (page : List Char) : (ofSource page).Within := List.suffix_refl page

lemma Within.next {s : Scanner} (h : s.Within) : s.next.2.Within := by
  unfold Within
  rw [next_source]
  exact s.next_suffix.trans h

lemma Within.run {s : Scanner} (h : s.Within) (calls : List Call) : (s.run calls).2.Within :=
  run_invariant (fun _ => Within.next) (fun _ _ => id) h calls

lemma run_source (s : Scanner) (calls : List Call) : (s.run calls).2.source = s.source :=
  run_invariant (P := fun t => t.source = s.source) (fun t h => (next_source t).trans h)
    (fun _ _ h => h) rfl calls

lemma run_suffix (s : Scanner) (calls : List Call) : (s.run calls).2.rest <:+ s.rest :=
  run_invariant (P := fun t => t.rest <:+ s.rest) (fun t h => t.next_suffix.trans h)
    (fun _ _ h => h) (List.suffix_refl _) calls

lemma Within.offset_add {s : Scanner} (h : s.Within) :
    s.offset + byteSize s.rest = byteSize s.source := by
  obtain ⟨before, hbefore⟩ := h
  rw [offset, offsetOf, ← hbefore, byteSize_append]
  omega

/-- The offset of a scanner lies between two characters of its page. -/
lemma Within.isValid_offset {s : Scanner} (h : s.Within) :
    String.Pos.Raw.IsValid (String.ofList s.source) ⟨s.offset⟩ := by
  have hoffset := h.offset_add
  obtain ⟨before, hbefore⟩ := h
  rw [← hbefore, byteSize_append] at hoffset
  refine String.Pos.Raw.isValid_iff_exists_append.2
    ⟨String.ofList before, String.ofList s.rest, ?_, ?_⟩
  · rw [← String.ofList_append, hbefore]
  · rw [String.rawEndPos, utf8ByteSize_ofList]
    congr 1
    omega

/-- Fewer unread bytes mean an offset further on. -/
lemma Within.offset_le {s t : Scanner} (hs : s.Within) (ht : t.Within)
    (hsource : t.source = s.source) (h : t.rest <:+ s.rest) : s.offset ≤ t.offset := by
  obtain ⟨taken, htaken⟩ := h
  have hbytes := byteSize_append taken t.rest
  have := hs.offset_add
  have := ht.offset_add
  rw [htaken] at hbytes
  rw [hsource] at this
  omega

/-! ## Tokens -/

lemma next_last_of_error {s t : Scanner} {e : LexError} (h : s.next = (.error e, t)) :
    t.last = s.last := by
  rcases next_eq_error h with ⟨-, -, rfl⟩ | ⟨-, hlast⟩
  · rfl
  · exact hlast

lemma next_byteSize_le {s t : Scanner} {outcome : Except LexError Token}
    (h : s.next = (outcome, t)) : byteSize t.rest ≤ byteSize s.rest := by
  obtain ⟨taken, htaken⟩ : t.rest <:+ s.rest := by simpa [h] using s.next_suffix
  rw [← htaken, byteSize_append]
  exact Nat.le_add_left _ _

/-- A token other than the end of the page leaves fewer bytes unread. -/
lemma next_byteSize_lt {s t : Scanner} {token : Token} (h : s.next = (.ok token, t))
    (hne : token ≠ .endOfInput) : byteSize t.rest < byteSize s.rest := by
  have hlength := next_length_lt h hne
  obtain ⟨taken, htaken⟩ : t.rest <:+ s.rest := by simpa [h] using s.next_suffix
  rw [← htaken, List.length_append] at hlength
  rw [← htaken, byteSize_append]
  have := length_le_byteSize taken
  omega

/-- The tokens before the end of the page are no more than the bytes that they take. -/
lemma length_tokensOf_run (s : Scanner) (calls : List Call) :
    ((tokensOf (s.run calls).1).filter (· ≠ .endOfInput)).length + byteSize (s.run calls).2.rest ≤
      byteSize s.rest := by
  induction calls generalizing s with
  | nil => simp [run]
  | cons c calls ih =>
    cases c with
    | setMode mode => exact ih (s.setMode mode)
    | next =>
      match hnext : s.next with
      | (.error e, t) =>
        simp only [run_next_of_eq hnext, tokensOf_cons_error]
        exact Nat.le_trans (ih t) (next_byteSize_le hnext)
      | (.ok token, t) =>
        simp only [run_next_of_eq hnext, tokensOf_cons_ok]
        have hrest := ih t
        by_cases hend : token = .endOfInput
        · rw [List.filter_cons_of_neg (by simpa using hend)]
          exact Nat.le_trans hrest (next_byteSize_le hnext)
        · have := next_byteSize_lt hnext hend
          rw [List.filter_cons_of_pos (by simpa using hend), List.length_cons]
          omega

/-! ## The end of the page -/

lemma next_of_ended {s : Scanner} (h : s.last = some .endOfInput) :
    s.next = (.error .pastEnd, s) := by
  rw [next, if_pos h]

/-- After the end of the page a scanner reads nothing and stays where it is, whatever the
rules. -/
lemma run_of_ended {s : Scanner} (h : s.last = some .endOfInput) (calls : List Call) :
    (∀ outcome ∈ (s.run calls).1, outcome = .error .pastEnd) ∧
      (s.run calls).2.offset = s.offset ∧ (s.run calls).2.last = some .endOfInput := by
  induction calls generalizing s with
  | nil => exact ⟨by simp [run], rfl, h⟩
  | cons c calls ih =>
    cases c with
    | setMode mode => exact ih h
    | next =>
      simp only [run, next_of_ended h, List.forall_mem_cons, true_and]
      exact ih h

/-- A scanner that has come to the end of the page knows it. -/
lemma last_of_mem_run {s : Scanner} {calls : List Call}
    (h : .ok .endOfInput ∈ (s.run calls).1) : (s.run calls).2.last = some .endOfInput := by
  induction calls generalizing s with
  | nil => simp [run] at h
  | cons c calls ih =>
    cases c with
    | setMode mode => exact ih h
    | next =>
      rcases List.mem_cons.1 h with hfirst | hlater
      · have hnext : s.next = (.ok .endOfInput, s.next.2) := Prod.ext hfirst.symm rfl
        exact (run_of_ended (next_eq_ok hnext).2.2.1 calls).2.2
      · exact ih hlater

lemma tokensOf_run_of_ended {s : Scanner} (h : s.last = some .endOfInput) (calls : List Call) :
    tokensOf (s.run calls).1 = [] := by
  rw [tokensOf, List.filterMap_eq_nil_iff]
  intro outcome houtcome
  rw [(run_of_ended h calls).1 outcome houtcome]
  rfl

/-- The end of the page is read at most once. -/
lemma count_endOfInput_run (s : Scanner) (calls : List Call) :
    (tokensOf (s.run calls).1).count .endOfInput ≤ 1 := by
  induction calls generalizing s with
  | nil => simp [run]
  | cons c calls ih =>
    cases c with
    | setMode mode => exact ih (s.setMode mode)
    | next =>
      match hnext : s.next with
      | (.error e, t) =>
        rw [run_next_of_eq hnext, tokensOf_cons_error]
        exact ih t
      | (.ok token, t) =>
        rw [run_next_of_eq hnext, tokensOf_cons_ok]
        by_cases hend : token = .endOfInput
        · have hlast : t.last = some .endOfInput := hend ▸ (next_eq_ok hnext).2.2.1
          rw [tokensOf_run_of_ended hlast]
          exact List.count_le_length
        · rw [List.count_cons_of_ne hend]
          exact ih t

/-- A page with a wrong escape in a string literal. -/
def faultyPage : List Char := "é\x7b$\"ü\\q\"$\x7d".toList

/-- Calls that leave the literal after its failure and go on under the rules of text. -/
def resumedCalls : List Call :=
  [.next, .next, .setMode .tag, .next, .setMode .text, .next, .next]

example : ((ofSource faultyPage).run resumedCalls).1 =
    [.ok (.text "é"), .ok .tagOpen, .error (.invalidEscape (some 'q') 7), .ok (.text "\"$\x7d"),
      .ok .endOfInput] := by cbv

end Scanner

end PageScript
