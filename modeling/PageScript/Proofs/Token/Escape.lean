import PageScript.Document
import PageScript.Token.Scanner
import Mathlib.Tactic.Lemma
/-!
# Escaped text reads back

Runs of text and string literals are escaped in two different ways.  Reading either gives back
the characters that were escaped, whatever the page goes on with: a run of text ends at the end of
the page or at a tag opening, a literal at its closing quote.
-/

namespace PageScript

/-! ## Runs of text -/

/-- What may follow a run of text: nothing, or a tag. -/
inductive EndsText : List Char → Prop
  /-- The page is over. -/
  | nil : EndsText []
  /-- A tag is opened. -/
  | tagOpen (rest : List Char) : EndsText ('\x7b' :: '$' :: rest)

/-- No dollar sign stands where a run of text ends. -/
lemma EndsText.head?_ne {rest : List Char} (h : EndsText rest) : rest.head? ≠ some '$' := by
  cases h with
  | nil => simp
  | tagOpen rest => simp

/-- Escaping puts a dollar sign first only where one stands. -/
lemma head?_escapeText_append {s rest : List Char} (hs : s.head? ≠ some '$')
    (hrest : EndsText rest) : (escapeText s ++ rest).head? ≠ some '$' := by
  unfold escapeText
  split
  · exact hrest.head?_ne
  · simp
  · simp
  · simpa using hs

namespace Scan

/-- A character that is neither a backslash nor the first of a tag opening stands for itself. -/
lemma text_cons {done rest : List Char} {c : Char} (hc : c ≠ '\\')
    (hopen : c = '\x7b' → rest.head? ≠ some '$') : text done (c :: rest) = text (c :: done) rest := by
  rw [text]
  · rintro tail rfl rfl
    exact hopen rfl rfl
  · rintro tail rfl
    exact absurd rfl hc
  · rintro tail rfl
    exact absurd rfl hc
  · exact hc

/-- Where a run of text ends, nothing is added to it. -/
lemma text_of_endsText {done rest : List Char} (hrest : EndsText rest) :
    text done rest = .ok (done.reverse, rest) := by
  cases hrest with
  | nil => rw [text]
  | tagOpen rest => rw [text]

/-- Escaped text reads back, up to the tag or the end of the page that follows it. -/
theorem text_escapeText {done s rest : List Char} (hrest : EndsText rest) :
    text done (escapeText s ++ rest) = .ok (done.reverse ++ s, rest) := by
  fun_induction escapeText s generalizing done with
  | case1 => simpa using text_of_endsText hrest
  | case2 s ih => simp [text, ih]
  | case3 s ih =>
    rw [List.cons_append, List.cons_append, List.cons_append, text,
      text_cons (by decide) (by simp), ih]
    simp
  | case4 c s hslash hopen ih =>
    rw [List.cons_append, text_cons hslash, ih]
    · simp
    · rintro rfl
      refine head?_escapeText_append ?_ hrest
      intro hs
      obtain ⟨s, rfl⟩ := List.head?_eq_some_iff.1 hs
      exact hopen s rfl rfl

/-! ## String literals -/

/-- Reading a literal undoes its escapes and takes its closing quote. -/
theorem literal_escapeString (done s rest : List Char) :
    literal done (Element.escapeString s ++ '"' :: rest) = .ok (done.reverse ++ s, rest) := by
  fun_induction Element.escapeString s generalizing done with
  | case1 => simp [literal]
  | case2 s ih => simp [literal, escaped?, ih]
  | case3 s ih => simp [literal, escaped?, ih]
  | case4 s ih => simp [literal, escaped?, ih]
  | case5 s ih => simp [literal, escaped?, ih]
  | case6 s ih => simp [literal, escaped?, ih]
  | case7 c s hslash hquote _ _ _ ih =>
    have step (tail : List Char) : literal done (c :: tail) = literal (c :: done) tail := by
      rw [literal]
      · exact hquote
      · rintro rfl
        exact absurd rfl hslash
      · rintro d tail rfl
        exact absurd rfl hslash
    rw [List.cons_append, step, ih]
    simp

end Scan

end PageScript
