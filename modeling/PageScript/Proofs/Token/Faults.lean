import PageScript.Proofs.Token.Calls
import PageScript.Proofs.Token.Lookahead
/-!
# Where lexical errors point

A lexical error tells its place by the number of bytes of the page before it.  Whatever was asked of
the scanner before, that place is where the fault is: the backslash that escapes nothing, the
opening quote of the literal that is never closed, the character that begins no token, the first
character of the numeral with two points.

A numeral is refused for its points only: with one point or none it is always some number.
-/

namespace PageScript

/-- After `offset` bytes the page goes on with `part`, up to its end. -/
def GoesOnAt (page : List Char) (offset : Nat) (part : List Char) : Prop :=
  ∃ before, page = before ++ part ∧ byteSize before = offset

/-! ## Literals without a closing quote -/

/-- How many backslashes stand at the end of a text. -/
def closingSlashes (s : List Char) : Nat := (s.reverse.takeWhile (· == '\\')).length

/-- Every quote is escaped: the number of backslashes right before it is odd. -/
def IsUnclosed (body : List Char) : Prop :=
  ∀ before after, body = before ++ '"' :: after → Odd (closingSlashes before)

lemma closingSlashes_append (a b : List Char) :
    closingSlashes (a ++ b) =
      if closingSlashes b = b.length then closingSlashes a + b.length else closingSlashes b := by
  unfold closingSlashes
  rw [List.reverse_append, List.takeWhile_append, List.length_reverse]
  split
  · rw [List.length_append, List.length_reverse, Nat.add_comm]
  · rfl

/-- Complete escapes in front do not matter. -/
lemma odd_closingSlashes_append {a : List Char} (ha : Even (closingSlashes a)) {b : List Char}
    (hb : Odd (closingSlashes b)) : Odd (closingSlashes (a ++ b)) := by
  rw [closingSlashes_append]
  split
  · next h => exact ha.add_odd (h ▸ hb)
  · exact hb

lemma isUnclosed_nil : IsUnclosed [] := by
  intro before after h
  simp at h

/-- An unclosed literal stays so behind a character that is no quote and no backslash. -/
lemma IsUnclosed.cons {c : Char} {body : List Char} (h : IsUnclosed body) (hquote : c ≠ '"')
    (hslash : c ≠ '\\') : IsUnclosed (c :: body) := by
  intro before after hbefore
  cases before with
  | nil => exact absurd (List.cons.inj hbefore).1 hquote
  | cons d before =>
    obtain ⟨rfl, hbody⟩ := List.cons.inj hbefore
    have hc : closingSlashes [c] = 0 := by simp [closingSlashes, hslash]
    exact odd_closingSlashes_append (a := [c]) (hc ▸ Even.zero) (h before after hbody)

/-- An unclosed literal stays so behind a backslash and the character that it escapes. -/
lemma IsUnclosed.cons_escape {body : List Char} (h : IsUnclosed body) (c : Char) :
    IsUnclosed ('\\' :: c :: body) := by
  intro before after hbefore
  rcases before with _ | ⟨d, _ | ⟨d', before⟩⟩
  · simp at hbefore
  · obtain ⟨rfl, -⟩ := List.cons.inj hbefore
    exact ⟨0, rfl⟩
  · simp only [List.cons_append, List.cons.injEq] at hbefore
    obtain ⟨rfl, rfl, hbody⟩ := hbefore
    have hpair : Even (closingSlashes ['\\', c]) := by
      by_cases hc : c = '\\'
      · subst hc
        exact ⟨1, rfl⟩
      · simp [closingSlashes, hc]
    exact odd_closingSlashes_append hpair (h before after hbody)

namespace Scan

variable {done input place : List Char}

lemma isUnclosed_of_literal (h : literal done input = .error .unclosed) : IsUnclosed input := by
  fun_induction literal done input with
  | case1 => exact isUnclosed_nil
  | case2 | case3 | case5 => simp at h
  | case4 done c r d _ ih => exact (ih h).cons_escape c
  | case6 done c r hquote hlast hslash ih =>
    refine (ih h).cons hquote ?_
    rintro rfl
    cases r with
    | nil => exact hlast rfl rfl
    | cons d r => exact hslash d r rfl rfl

/-! ## Backslashes that escape nothing -/

/-- Whether a backslash escapes the character: in a run of text under the rules of text, in a
string literal under those of tags. -/
def CanEscape : Mode → Char → Prop
  | .text, c => c = '\\' ∨ c = '\x7b'
  | .tag, c => (escaped? c).isSome

/-- A part of the page that begins with a backslash that escapes nothing. -/
def IsBadEscape (mode : Mode) (part : List Char) : Prop :=
  ∃ after, part = '\\' :: after ∧ ∀ c ∈ after.head?, ¬ CanEscape mode c

lemma isBadEscape_of_text (h : text done input = .error place) : IsBadEscape .text place := by
  fun_induction text done input with
  | case1 | case2 => simp at h
  | case3 _ _ ih | case4 _ _ ih => exact ih h
  | case5 done r hslash hopen =>
    obtain rfl := Except.error.inj h
    refine ⟨r, rfl, fun c hc => ?_⟩
    obtain ⟨tail, rfl⟩ := List.head?_eq_some_iff.1 hc
    rintro (rfl | rfl)
    · exact hslash tail rfl
    · exact hopen tail rfl
  | case6 _ _ _ _ _ _ _ ih => exact ih h

lemma isBadEscape_of_literal (h : literal done input = .error (.badEscape place)) :
    IsBadEscape .tag place := by
  fun_induction literal done input with
  | case1 | case2 => simp at h
  | case3 =>
    obtain rfl := LiteralFault.badEscape.inj (Except.error.inj h)
    exact ⟨[], rfl, by simp⟩
  | case4 _ _ _ _ _ ih => exact ih h
  | case5 done c r hc =>
    obtain rfl := LiteralFault.badEscape.inj (Except.error.inj h)
    exact ⟨c :: r, rfl, by simp [CanEscape, hc]⟩
  | case6 _ _ _ _ _ _ ih => exact ih h

end Scan

/-! ## Numerals -/

/-- Digits with at most one point behind the first are a decimal. -/
lemma Decimal.isSome_readDouble? {s body : List Char} {negative : Bool}
    (hs : splitSign s = (negative, body)) (hfirst : body.head?.any Char.isDigit)
    (hbody : ∀ c ∈ body, Scan.isNumeralChar c) (hpoints : body.count '.' ≤ 1) :
    (readDouble? s).isSome := by
  have hwhole : body.takeWhile Char.isDigit ≠ [] := by
    cases body with
    | nil => simp at hfirst
    | cons d body =>
      have hd : d.isDigit := by simpa using hfirst
      simp [List.takeWhile_cons_of_pos hd]
  have hrest : ∃ fraction, splitFraction (body.dropWhile Char.isDigit) = (fraction, []) := by
    cases hdrop : body.dropWhile Char.isDigit with
    | nil => exact ⟨[], rfl⟩
    | cons c tail =>
      have hmem : ∀ d ∈ c :: tail, Scan.isNumeralChar d := fun d hd =>
        hbody d ((List.dropWhile_suffix _).subset (hdrop ▸ hd))
      have hc : c.isDigit = false := by
        simpa [hdrop] using any_head?_dropWhile Char.isDigit body
      obtain rfl : c = '.' := by
        simpa [Scan.isNumeralChar, hc] using hmem c List.mem_cons_self
      have hcount : ('.' :: tail).count '.' ≤ 1 :=
        Nat.le_trans (hdrop ▸ (List.dropWhile_sublist _).count_le '.') hpoints
      have htail : ∀ d ∈ tail, d.isDigit := by
        intro d hd
        have hpoint : d ≠ '.' := by
          rintro rfl
          have := List.count_pos_iff.2 hd
          rw [List.count_cons_self] at hcount
          omega
        simpa [Scan.isNumeralChar, hpoint] using hmem d (List.mem_cons_of_mem _ hd)
      refine ⟨tail, ?_⟩
      rw [splitFraction, List.takeWhile_eq_self_iff.2 htail, List.dropWhile_eq_nil_iff.2 htail]
  obtain ⟨fraction, hfraction⟩ := hrest
  simp [readDouble?, hs, hfraction, readExponent?, hwhole]

/-- What begins as a numeral and is none has two points. -/
lemma Scan.two_le_count_of_number? {first : Char} {rest : List Char}
    (hstart : startsNumeral (first :: rest))
    (h : number? (first :: rest.takeWhile isNumeralChar) = none) :
    2 ≤ (first :: rest.takeWhile isNumeralChar).count '.' := by
  by_contra hpoints
  have hread : (Decimal.readDouble? (first :: rest.takeWhile isNumeralChar)).isSome := by
    have hrest : ∀ c ∈ rest.takeWhile isNumeralChar, isNumeralChar c :=
      fun c hc => List.mem_takeWhile_imp hc
    rw [startsNumeral_cons] at hstart
    by_cases hdigit : first.isDigit
    · have hsign := Decimal.splitSign_cons_of_isDigit hdigit (rest.takeWhile isNumeralChar)
      refine Decimal.isSome_readDouble? hsign (by simpa using hdigit) ?_ (by omega)
      exact List.forall_mem_cons.2 ⟨isNumeralChar_of_isDigit hdigit, hrest⟩
    · obtain ⟨hsign, hnext⟩ : (first = '+' ∨ first = '-') ∧ rest.head?.any Char.isDigit := by
        simpa [hdigit] using hstart
      have hpoint : first ≠ '.' := by rcases hsign with rfl | rfl <;> decide
      rw [List.count_cons_of_ne hpoint] at hpoints
      have hbody : (rest.takeWhile isNumeralChar).head?.any Char.isDigit := by
        cases rest with
        | nil => simp at hnext
        | cons d rest =>
          have hd : d.isDigit := by simpa using hnext
          simpa [List.takeWhile_cons_of_pos (isNumeralChar_of_isDigit hd)] using hd
      rcases hsign with rfl | rfl
      · exact Decimal.isSome_readDouble? rfl hbody hrest (by omega)
      · exact Decimal.isSome_readDouble? rfl hbody hrest (by omega)
  obtain ⟨x, hx⟩ := Option.isSome_iff_exists.1 hread
  rw [number?, if_neg (by omega), hx] at h
  split at h
  · simp at h
  · split at h <;> simp at h

/-! ## Errors -/

/-- What a lexical error says of the page: that the scanner `s` came upon a fault at the place that
the error tells, and stopped as `t`. -/
def LexError.PointsTo (page : List Char) (s t : Scanner) : LexError → Prop
  | .invalidEscape found offset =>
    ∃ after, GoesOnAt page offset ('\\' :: after) ∧ found = after.head? ∧
      ∀ c ∈ found, ¬ Scan.CanEscape s.mode c
  | .unterminatedString offset =>
    ∃ body, GoesOnAt page offset ('"' :: body) ∧ s.rest.dropWhile Scan.isGap = '"' :: body ∧
      IsUnclosed body ∧ t.rest = []
  | .unexpectedChar found offset mode =>
    ∃ after, GoesOnAt page offset (found :: after) ∧ mode = s.mode
  | .malformedNumber text offset =>
    ∃ after, GoesOnAt page offset (text.toList ++ after) ∧ 2 ≤ text.toList.count '.'
  | .pastEnd => s.last = some .endOfInput

namespace Scanner

variable {s t : Scanner} {e : LexError} {input rest : List Char}

/-- An offset that is computed from an end of the page is where that end begins. -/
lemma goesOnAt_offsetOf {part : List Char} (h : part <:+ s.source) :
    GoesOnAt s.source (s.offsetOf part) part := by
  obtain ⟨before, hbefore⟩ := h
  refine ⟨before, hbefore.symm, ?_⟩
  rw [offsetOf, ← hbefore, byteSize_append]
  omega

lemma readText_error (h : s.readText input = (.error e, rest)) (hinput : input <:+ s.source)
    (hmode : s.mode = .text) : e.PointsTo s.source s t := by
  obtain ⟨place, hplace, rfl⟩ := readText_eq_error h
  obtain ⟨after, hafter, hbad⟩ := Scan.isBadEscape_of_text hplace
  have hpart := goesOnAt_offsetOf ((Scan.text_place_suffix hplace).trans hinput)
  rw [hafter] at hpart ⊢
  exact ⟨after, hpart, rfl, hmode ▸ hbad⟩

lemma readString_error (h : s.readString rest = (.error e, t.rest))
    (hrest : s.rest.dropWhile Scan.isGap = '"' :: rest) (hinput : '"' :: rest <:+ s.source)
    (hmode : s.mode = .tag) : e.PointsTo s.source s t := by
  unfold readString at h
  split at h
  · simp at h
  · next hunclosed =>
    obtain ⟨he, ht⟩ := Prod.mk.inj h
    obtain ⟨rfl⟩ := he
    exact ⟨rest, goesOnAt_offsetOf hinput, hrest, Scan.isUnclosed_of_literal hunclosed, ht.symm⟩
  · next place hplace =>
    obtain ⟨rfl⟩ := (Prod.mk.inj h).1
    obtain ⟨after, hafter, hbad⟩ := Scan.isBadEscape_of_literal hplace
    have hsuffix := ((Scan.literal_place_suffix hplace).trans (List.suffix_cons _ _)).trans hinput
    have hpart := goesOnAt_offsetOf hsuffix
    rw [hafter] at hpart ⊢
    exact ⟨after, hpart, rfl, hmode ▸ hbad⟩

lemma readNumber_error {first : Char} (h : s.readNumber first rest = (.error e, t.rest))
    (hstart : Scan.startsNumeral (first :: rest)) (hinput : first :: rest <:+ s.source) :
    e.PointsTo s.source s t := by
  unfold readNumber at h
  dsimp only at h
  split at h
  · simp at h
  · next hnumber =>
    obtain ⟨rfl⟩ := (Prod.mk.inj h).1
    refine ⟨rest.dropWhile Scan.isNumeralChar, ?_, ?_⟩
    · have hpart := goesOnAt_offsetOf hinput
      rwa [String.toList_ofList, List.cons_append, List.takeWhile_append_dropWhile]
    · rw [String.toList_ofList]
      exact Scan.two_le_count_of_number? hstart hnumber

lemma readTag_error (h : s.readTag (s.rest.dropWhile Scan.isGap) = (.error e, t.rest))
    (hwithin : s.Within) (hmode : s.mode = .tag) : e.PointsTo s.source s t := by
  have hinput : s.rest.dropWhile Scan.isGap <:+ s.source :=
    (List.dropWhile_suffix _).trans hwithin
  generalize hrest : s.rest.dropWhile Scan.isGap = input at h hinput
  unfold readTag at h
  split at h
  · simp at h
  next c rest =>
  split at h
  · simp at h
  split at h
  · simp at h
  split at h
  · next hstart => exact readNumber_error h hstart hinput
  split at h
  · simp at h
  split at h
  · simp at h
  split at h
  · next hquote =>
    subst hquote
    exact readString_error h hrest hinput hmode
  split at h
  · simp at h
  · obtain ⟨rfl⟩ := (Prod.mk.inj h).1
    exact ⟨rest, goesOnAt_offsetOf hinput, hmode.symm⟩

lemma Within.next_error (hwithin : s.Within) (h : s.next = (.error e, t)) :
    e.PointsTo s.source s t := by
  rcases next_eq_error h with ⟨hlast, rfl, -⟩ | ⟨hread, -⟩
  · exact hlast
  cases hmode : s.mode with
  | text =>
    rw [read, hmode] at hread
    dsimp only at hread
    split at hread
    · cases (Prod.mk.inj hread).1
    · exact readText_error hread hwithin hmode
  | tag =>
    rw [read, hmode] at hread
    exact readTag_error hread hwithin hmode

/-- After any calls, what an error of the scanner says of the page is so. -/
theorem pointsTo_of_next_error (page : List Char) (calls : List Call) {e : LexError} {t : Scanner}
    (h : ((ofSource page).run calls).2.next = (.error e, t)) :
    e.PointsTo page ((ofSource page).run calls).2 t := by
  have hwithin := (within_ofSource page).run calls
  have hsource : ((ofSource page).run calls).2.source = page := run_source _ calls
  have hpoints := hwithin.next_error h
  rwa [hsource] at hpoints

/-- A page with a numeral of two points and a literal whose last quote is escaped. -/
def unclosedPage : List Char := "é\x7b$ 1.2.3\"ü\\\"".toList

/-- Calls that go on after the numeral. -/
def unclosedCalls : List Call := [.next, .next, .setMode .tag, .next]

/-- The error of the next call points to the opening quote. -/
theorem pointsTo_unclosedPage :
    ∃ t, ((ofSource unclosedPage).run unclosedCalls).2.next =
        (.error (.unterminatedString 10), t) ∧
      (LexError.unterminatedString 10).PointsTo unclosedPage
        ((ofSource unclosedPage).run unclosedCalls).2 t := by
  have herror : ((ofSource unclosedPage).run unclosedCalls).2.next.1 =
      .error (.unterminatedString 10) := by cbv
  have hnext (outcome : Except LexError Token × Scanner) {e : LexError}
      (h : outcome.1 = .error e) : outcome = (.error e, outcome.2) := Prod.ext h rfl
  exact ⟨_, hnext _ herror, pointsTo_of_next_error unclosedPage unclosedCalls (hnext _ herror)⟩

end Scanner

end PageScript
