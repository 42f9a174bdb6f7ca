import PageScript.Proofs.Document.RoundTrip
import PageScript.Proofs.Token.Calls
import PageScript.Proofs.Token.Shape
/-!
# Escaped text in any surroundings

A run of text or a string literal that has been escaped is one token again, wherever it stands in a
page and whatever was asked of the scanner before.  The scanner takes its characters and no more.
A run of text is whole: behind it comes a tag or the end of the page.
-/

namespace PageScript

/-- Escaping leaves no run of text empty. -/
lemma escapeText_ne_nil {s : List Char} (h : s ≠ []) : escapeText s ≠ [] := by
  unfold escapeText
  split
  · exact absurd rfl h
  · simp
  · simp
  · simp

namespace Scanner

variable {s t : Scanner} {token : Token} {input rest : List Char}

/-! ## The end of the page -/

/-- Inside a tag nothing is left behind the end of the page. -/
lemma rest_of_readTag_endOfInput (h : s.readTag input = (.ok .endOfInput, rest)) : rest = [] := by
  cases readsInTag_of_readTag h with
  | endOfInput => rfl

lemma rest_of_next_endOfInput (h : s.next = (.ok .endOfInput, t)) : t.rest = [] := by
  cases takes_of_take (take_eq_ok_iff.2 h) with
  | endOfPage _ _ hend => exact hend
  | inTag _ hread => exact rest_of_readTag_endOfInput hread

/-- As long as something is left of the page, its end has not been read. -/
lemma last_ne_of_run (page : List Char) (calls : List Call)
    (h : ((ofSource page).run calls).2.rest ≠ []) :
    ((ofSource page).run calls).2.last ≠ some .endOfInput := by
  refine mt (run_invariant (P := fun s => s.last = some .endOfInput → s.rest = [])
    ?_ (fun _ _ hs => hs) (fun hlast => ?_) calls) h
  · intro s hs hlast
    match hnext : s.next with
    | (.ok token, t) =>
      rw [hnext] at hlast
      obtain rfl : token = .endOfInput := by
        simpa [(next_eq_ok hnext).2.2.1] using hlast
      exact rest_of_next_endOfInput hnext
    | (.error e, t) =>
      rw [hnext, next_last_of_error hnext] at hlast
      rw [next_of_ended hlast] at hnext
      obtain ⟨-, rfl⟩ := Prod.mk.inj hnext
      exact hs hlast
  · simp [ofSource] at hlast

/-! ## Tokens that take a known part of the page -/

/-- A scanner that has read a token differs by that and by what is left of the page. -/
lemma eq_of_take (h : s.take = .ok (token, t)) :
    s.next = (.ok token, { s with rest := t.rest, last := some token }) := by
  have hnext := take_eq_ok_iff.1 h
  obtain ⟨hlast, hread, -, -⟩ := next_eq_ok hnext
  rw [next, if_neg hlast, hread]

/-- Behind a run of text there is a tag or the end of the page. -/
lemma next_of_endsText (h : s.StandsAt .text rest) (hrest : EndsText rest) :
    s.next.1 = .ok (if rest.isEmpty then .endOfInput else .tagOpen) := by
  cases hrest with
  | nil =>
    rw [take_eq_ok_iff.1 (Document.take_endOfInput h)]
    rfl
  | tagOpen rest =>
    obtain ⟨t, ht, -⟩ := h.take_tagOpen
    rw [take_eq_ok_iff.1 ht, if_neg (by simp)]

/-- Wherever a scanner stands after any calls, it reads an escaped run of text as that one run, up
to the tag or the end of the page that follows it, and an escaped string between quotes as that
string, whatever follows it. -/
theorem next_escaped (page : List Char) (calls : List Call) :
    let s := ((ofSource page).run calls).2
    (∀ (run : String) (rest : List Char), run ≠ "" → EndsText rest → s.mode = .text →
        s.rest = escapeText run.toList ++ rest →
        let t := { s with rest, last := some (.text run) }
        s.next = (.ok (.text run), t) ∧
          t.next.1 = .ok (if rest.isEmpty then .endOfInput else .tagOpen)) ∧
      ∀ (body : String) (rest : List Char), s.mode = .tag →
        s.rest = '"' :: (Element.escapeString body.toList ++ '"' :: rest) →
        s.next = (.ok (.string body), { s with rest, last := some (.string body) }) := by
  intro s
  have hstands {mode : Mode} {ahead : List Char} (hmode : s.mode = mode) (hahead : s.rest = ahead)
      (hne : ahead ≠ []) : s.StandsAt mode ahead :=
    ⟨hmode, hahead, last_ne_of_run page calls (hahead ▸ hne)⟩
  constructor
  · intro run rest hrun hrest hmode hahead
    have hne : escapeText run.toList ++ rest ≠ [] := by
      simp [escapeText_ne_nil (show run.toList ≠ [] by simpa using hrun)]
    obtain ⟨t, ht, hbehind⟩ := (hstands hmode hahead hne).take_text hrun hrest
    exact ⟨hbehind.rest_eq ▸ eq_of_take ht, next_of_endsText ⟨hmode, rfl, by simp⟩ hrest⟩
  · intro body rest hmode hahead
    have hread := @readTag_string s rest body.toList
    rw [String.ofList_toList] at hread
    obtain ⟨t, ht, hbehind⟩ :=
      StandsAt.take_tag (.inl (hstands hmode hahead (by simp))) hread (by simp)
    exact hbehind.rest_eq ▸ eq_of_take ht

/-- A tag with a string literal, and a run of text between it and another tag. -/
def escapedPage : List Char := "\x7b$\"\\\"\\n\"$\x7d\\\\\\\x7b$\x7b\x7b$".toList

/-- Calls that bring the scanner in front of the literal. -/
def callsToLiteral : List Call := [.next, .setMode .tag]

/-- Calls that bring the scanner in front of the run of text. -/
def callsToText : List Call := [.next, .setMode .tag, .next, .next, .setMode .text]

theorem next_escapedPage :
    ((ofSource escapedPage).run callsToLiteral).2.next.1 = .ok (.string "\"\n") ∧
      ((ofSource escapedPage).run callsToText).2.next.1 = .ok (.text "\\\x7b$\x7b") ∧
      ((ofSource escapedPage).run callsToText).2.next.2.rest = ['\x7b', '$'] ∧
      ((ofSource escapedPage).run callsToText).2.next.2.next.1 = .ok .tagOpen := by
  have hliteral := (next_escaped escapedPage callsToLiteral).2 "\"\n"
    "$\x7d\\\\\\\x7b$\x7b\x7b$".toList (by cbv) (by cbv)
  obtain ⟨htext, hbehind⟩ := (next_escaped escapedPage callsToText).1 "\\\x7b$\x7b" ['\x7b', '$']
    (by decide) (.tagOpen []) (by cbv) (by cbv)
  rw [hliteral, htext]
  exact ⟨rfl, rfl, rfl, hbehind⟩

end Scanner

end PageScript
