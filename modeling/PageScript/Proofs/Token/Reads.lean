import PageScript.Document.Reading
import PageScript.Token.Stream
import Mathlib.Tactic.Lemma
/-!
# Runs of tokens

A scanner that reads one token after another, and changes its rules where a tag opens or closes,
goes through a run of tokens.  The stream of all tokens of a page is such a run up to the end of the
page; so what a reader of documents learns from single tokens can be said of the stream.
-/

namespace PageScript.Scanner

/-- `s.Reads ts t` holds if `t` is left of the scanner `s` after it has read the tokens `ts`, with
the rules that they put in force. -/
inductive Reads : Scanner → List Token → Scanner → Prop
  /-- No token has been read. -/
  | nil (s : Scanner) : Reads s [] s
  /-- A token is read, and the scanner goes on under the rules in force after it. -/
  | cons {s t u : Scanner} {token : Token} {tokens : List Token}
      (first : s.take = .ok (token, t))
      (rest : Reads (t.setMode (modeAfter s.mode token)) tokens u) :
      Reads s (token :: tokens) u

/-! ## Single tokens -/

lemma take_eq_ok_iff {s t : Scanner} {token : Token} :
    s.take = .ok (token, t) ↔ s.next = (.ok token, t) := by
  unfold take
  split
  · next h => simp [h]
  · next h => simp [h]

lemma next_eq_ok {s t : Scanner} {token : Token} (h : s.next = (.ok token, t)) :
    s.last ≠ some .endOfInput ∧ s.read = (.ok token, t.rest) ∧ t.last = some token ∧
      t.mode = s.mode := by
  unfold next at h
  split at h
  · simp at h
  next hlast =>
  split at h
  · next hread =>
    simp only [Prod.mk.injEq, Except.ok.injEq] at h
    obtain ⟨rfl, rfl⟩ := h
    exact ⟨hlast, hread, rfl, rfl⟩
  · simp at h

/-- A call fails behind the end of the page, or because nothing can be read. -/
lemma next_eq_error {s t : Scanner} {e : LexError} (h : s.next = (.error e, t)) :
    (s.last = some .endOfInput ∧ e = .pastEnd ∧ t = s) ∨
      (s.read = (.error e, t.rest) ∧ t.last = s.last) := by
  unfold next at h
  split at h
  · next hlast =>
    obtain ⟨⟨⟩, rfl⟩ := Prod.mk.inj h
    exact .inl ⟨hlast, rfl, rfl⟩
  split at h
  · cases (Prod.mk.inj h).1
  · next hread =>
    obtain ⟨⟨⟩, rfl⟩ := Prod.mk.inj h
    exact .inr ⟨hread, rfl⟩

lemma take_of_read {s : Scanner} {token : Token} {rest : List Char}
    (hlast : s.last ≠ some .endOfInput) (hread : s.read = (.ok token, rest)) :
    s.take = .ok (token, { s with rest, last := some token }) := by
  rw [take_eq_ok_iff, next, if_neg hlast, hread]

lemma take_mode {s t : Scanner} {token : Token} (h : s.take = .ok (token, t)) :
    t.mode = s.mode :=
  (next_eq_ok (take_eq_ok_iff.1 h)).2.2.2

lemma take_last {s t : Scanner} {token : Token} (h : s.take = .ok (token, t)) :
    t.last = some token :=
  (next_eq_ok (take_eq_ok_iff.1 h)).2.2.1

/-- After the end of the page no token is left. -/
lemma not_take_of_last {s t : Scanner} {token : Token} (h : s.last = some .endOfInput) :
    s.take ≠ .ok (token, t) :=
  fun ht => (next_eq_ok (take_eq_ok_iff.1 ht)).1 h

/-- At the end of the page nothing is read but that. -/
lemma eq_endOfInput_of_take {s t : Scanner} {token : Token} (h : s.take = .ok (token, t))
    (hs : s.rest = []) : token = .endOfInput := by
  obtain ⟨-, hread, -, -⟩ := next_eq_ok (take_eq_ok_iff.1 h)
  unfold read at hread
  rw [hs] at hread
  cases hmode : s.mode with
  | text | tag =>
    rw [hmode] at hread
    obtain ⟨⟨⟩, -⟩ := Prod.mk.inj hread
    rfl

@[simp] lemma setMode_mode (s : Scanner) (mode : Mode) : (s.setMode mode).mode = mode := rfl

@[simp] lemma setMode_rest (s : Scanner) (mode : Mode) : (s.setMode mode).rest = s.rest := rfl

@[simp] lemma setMode_last (s : Scanner) (mode : Mode) : (s.setMode mode).last = s.last := rfl

lemma setMode_of_mode {s : Scanner} {mode : Mode} (h : s.mode = mode) : s.setMode mode = s := by
  rw [← h]
  rfl

namespace Reads

lemma nil_iff {s t : Scanner} : s.Reads [] t ↔ s = t := by
  constructor
  · rintro ⟨⟩
    rfl
  · rintro rfl
    exact nil s

lemma cons_iff {s u : Scanner} {token : Token} {tokens : List Token} :
    s.Reads (token :: tokens) u ↔
      ∃ t, s.take = .ok (token, t) ∧ (t.setMode (modeAfter s.mode token)).Reads tokens u := by
  constructor
  · rintro (_ | ⟨first, rest⟩)
    exact ⟨_, first, rest⟩
  · rintro ⟨t, first, rest⟩
    exact cons first rest

/-- Only a tag that opens or closes changes the rules. -/
lemma cons_iff_of_ne {s u : Scanner} {token : Token} {tokens : List Token}
    (hopen : token ≠ .tagOpen) (hclose : token ≠ .tagClose) :
    s.Reads (token :: tokens) u ↔ ∃ t, s.take = .ok (token, t) ∧ t.Reads tokens u := by
  have mode : modeAfter s.mode token = s.mode := by cases token <;> simp_all [modeAfter]
  rw [cons_iff, mode]
  constructor
  · rintro ⟨t, first, rest⟩
    rw [setMode_of_mode (take_mode first)] at rest
    exact ⟨t, first, rest⟩
  · rintro ⟨t, first, rest⟩
    refine ⟨t, first, ?_⟩
    rwa [setMode_of_mode (take_mode first)]

lemma append_iff {s u : Scanner} {a b : List Token} :
    s.Reads (a ++ b) u ↔ ∃ t, s.Reads a t ∧ t.Reads b u := by
  induction a generalizing s with
  | nil => simp [nil_iff]
  | cons token a ih =>
    simp only [List.cons_append, cons_iff, ih]
    constructor
    · rintro ⟨t, first, v, ha, hb⟩
      exact ⟨v, ⟨t, first, ha⟩, hb⟩
    · rintro ⟨v, ⟨t, first, ha⟩, hb⟩
      exact ⟨t, first, v, ha, hb⟩

lemma trans {s t u : Scanner} {a b : List Token} (ha : s.Reads a t) (hb : t.Reads b u) :
    s.Reads (a ++ b) u :=
  append_iff.2 ⟨t, ha, hb⟩

/-- A token with others behind it is not the end of the page. -/
lemma ne_endOfInput {s t u : Scanner} {token next : Token} {tokens : List Token}
    (first : s.take = .ok (token, t))
    (rest : (t.setMode (modeAfter s.mode token)).Reads (next :: tokens) u) :
    token ≠ .endOfInput := by
  rintro rfl
  obtain ⟨v, hv, -⟩ := cons_iff.1 rest
  exact not_take_of_last (by simpa using take_last first) hv

/-- What is left of the page is an end of what was there. -/
lemma suffix {s t : Scanner} {tokens : List Token} (h : s.Reads tokens t) : t.rest <:+ s.rest := by
  induction h with
  | nil s => exact List.suffix_rfl
  | cons first _ ih =>
    have hfirst := take_suffix first
    exact ih.trans hfirst

/-- A run ends where its last token has been read. -/
lemma exists_take {s t : Scanner} {tokens : List Token} {token : Token} (h : s.Reads tokens t)
    (htoken : token ∈ tokens.getLast?) :
    ∃ u v : Scanner, u.take = .ok (token, v) ∧ v.setMode (modeAfter u.mode token) = t := by
  obtain ⟨front, rfl⟩ := List.getLast?_eq_some_iff.1 htoken
  obtain ⟨u, -, hlast⟩ := append_iff.1 h
  obtain ⟨v, hv, hnil⟩ := cons_iff.1 hlast
  exact ⟨u, v, hv, nil_iff.1 hnil⟩

/-- The last token of a run is the last one read. -/
lemma last_eq {s t : Scanner} {tokens : List Token} {token : Token} (h : s.Reads tokens t)
    (htoken : token ∈ tokens.getLast?) : t.last = some token := by
  obtain ⟨u, v, hv, rfl⟩ := h.exists_take htoken
  rw [setMode_last, take_last hv]

/-- Of two runs of tokens from one place, one goes on where the other ends. -/
lemma append_or {s t u : Scanner} {a b : List Token} (ha : s.Reads a t) (hb : s.Reads b u) :
    (∃ more, b = a ++ more ∧ t.Reads more u) ∨ ∃ more, a = b ++ more ∧ u.Reads more t := by
  induction ha generalizing b with
  | nil s => exact .inl ⟨b, rfl, hb⟩
  | @cons s v t token a first rest ih =>
    cases b with
    | nil =>
      obtain rfl := nil_iff.1 hb
      exact .inr ⟨token :: a, rfl, .cons first rest⟩
    | cons token' b =>
      obtain ⟨w, first', hb⟩ := cons_iff.1 hb
      obtain ⟨rfl, rfl⟩ : token' = token ∧ w = v := by
        simpa using first'.symm.trans first
      exact (ih hb).imp (fun ⟨more, hmore, hu⟩ => ⟨more, by rw [hmore, List.cons_append], hu⟩)
        fun ⟨more, hmore, hu⟩ => ⟨more, by rw [hmore, List.cons_append], hu⟩

/-- Where nothing is ahead, nothing is read but the end of the page. -/
lemma eq_or_of_rest_eq_nil {s t : Scanner} {tokens : List Token} (h : s.Reads tokens t)
    (hs : s.rest = []) :
    s = t ∨ t.last = some .endOfInput := by
  cases h with
  | nil => exact .inl rfl
  | cons first rest =>
    obtain rfl := eq_endOfInput_of_take first hs
    cases rest with
    | nil => exact .inr (by simpa using take_last first)
    | cons first' rest => exact absurd rfl (ne_endOfInput first (.cons first' rest))

end Reads

/-! ## The stream of all tokens -/

lemma tokens_of_take {s t : Scanner} {token : Token} (h : s.take = .ok (token, t))
    (hne : token ≠ .endOfInput) :
    s.tokens modeAfter =
      (token :: ((t.setMode (modeAfter s.mode token)).tokens modeAfter).1,
        ((t.setMode (modeAfter s.mode token)).tokens modeAfter).2) := by
  rw [tokens]
  split
  · next hs =>
    rw [take_eq_ok_iff, hs] at h
    simp at h
  · next hs =>
    rw [take_eq_ok_iff, hs] at h
    simp only [Prod.mk.injEq, Except.ok.injEq] at h
    obtain ⟨rfl, rfl⟩ := h
    rw [if_neg hne]

/-- The stream ends with the end of the page and no failure exactly if its tokens can be read one
after another. -/
theorem tokens_eq_iff {s : Scanner} {ts : List Token} :
    s.tokens modeAfter = (ts ++ [.endOfInput], none) ↔
      ∃ t, s.Reads (ts ++ [.endOfInput]) t := by
  constructor
  · intro h
    induction ts generalizing s with
    | nil =>
      rw [tokens] at h
      split at h
      · simp at h
      next t hs =>
      split at h
      · next hend =>
        rw [hend] at hs
        exact ⟨_, .cons (take_eq_ok_iff.2 hs) (.nil _)⟩
      · next hne =>
        simp only [List.nil_append, Prod.mk.injEq, List.cons.injEq] at h
        exact absurd h.1.1 hne
    | cons token ts ih =>
      rw [tokens] at h
      split at h
      · simp at h
      next hs =>
      split at h
      · simp at h
      · simp only [List.cons_append, Prod.mk.injEq, List.cons.injEq] at h
        obtain ⟨⟨rfl, htokens⟩, hnone⟩ := h
        obtain ⟨t, ht⟩ := ih (Prod.ext htokens hnone)
        exact ⟨t, .cons (take_eq_ok_iff.2 hs) ht⟩
  · rintro ⟨u, h⟩
    induction ts generalizing s with
    | nil =>
      obtain ⟨t, first, -⟩ := Reads.cons_iff.1 h
      rw [take_eq_ok_iff] at first
      rw [tokens]
      split
      · next hs =>
        rw [hs] at first
        simp at first
      · next hs =>
        rw [hs] at first
        simp only [Prod.mk.injEq, Except.ok.injEq] at first
        rw [if_pos first.1, first.1]
        rfl
    | cons token ts ih =>
      obtain ⟨t, first, rest⟩ := Reads.cons_iff.1 h
      have hne : token ≠ .endOfInput := by
        cases ts with
        | nil => exact Reads.ne_endOfInput first rest
        | cons => exact Reads.ne_endOfInput first rest
      rw [tokens_of_take first hne, ih rest]
      rfl

end PageScript.Scanner
