import PageScript.Token.Scanner
/-!
# Scanners go forward

What a scanner leaves unread is always an end of what was unread before, and a token other than the
end of the page leaves strictly less.  So a reader that asks for one token after another comes
to an end.
-/

namespace PageScript

namespace Scan

theorem text_suffix {done input run rest : List Char} (h : text done input = .ok (run, rest)) :
    rest <:+ input := by
  fun_induction text done input with
  | case1 done =>
    simp only [Except.ok.injEq, Prod.mk.injEq] at h
    simp [← h.2]
  | case2 done r =>
    simp only [Except.ok.injEq, Prod.mk.injEq] at h
    simp [← h.2]
  | case3 done r ih => exact ((ih h).trans (List.suffix_cons _ _)).trans (List.suffix_cons _ _)
  | case4 done r ih => exact ((ih h).trans (List.suffix_cons _ _)).trans (List.suffix_cons _ _)
  | case5 => simp at h
  | case6 done c r _ _ _ _ ih => exact (ih h).trans (List.suffix_cons _ _)

/-- A run of text that does not begin at a tag opening or at the end has a character. -/
theorem text_length_lt {done input run rest : List Char} (h : text done input = .ok (run, rest))
    (hne : input ≠ []) (hopen : ∀ r, input ≠ '\x7b' :: '$' :: r) : rest.length < input.length := by
  unfold text at h
  split at h
  · exact absurd rfl hne
  · exact absurd rfl (hopen _)
  · have := (text_suffix h).length_le
    simp only [List.length_cons]
    omega
  · have := (text_suffix h).length_le
    simp only [List.length_cons]
    omega
  · simp at h
  · have := (text_suffix h).length_le
    simp only [List.length_cons]
    omega

theorem text_place_suffix {done input place : List Char} (h : text done input = .error place) :
    place <:+ input := by
  fun_induction text done input with
  | case1 | case2 => simp at h
  | case3 done r ih => exact ((ih h).trans (List.suffix_cons _ _)).trans (List.suffix_cons _ _)
  | case4 done r ih => exact ((ih h).trans (List.suffix_cons _ _)).trans (List.suffix_cons _ _)
  | case5 =>
    simp only [Except.error.injEq] at h
    simp [← h]
  | case6 done c r _ _ _ _ ih => exact (ih h).trans (List.suffix_cons _ _)

theorem literal_suffix {done input body rest : List Char}
    (h : literal done input = .ok (body, rest)) : rest <:+ input := by
  fun_induction literal done input with
  | case1 => simp at h
  | case2 done r =>
    simp only [Except.ok.injEq, Prod.mk.injEq] at h
    simp [← h.2]
  | case3 => simp at h
  | case4 done c r d _ ih =>
    exact ((ih h).trans (List.suffix_cons _ _)).trans (List.suffix_cons _ _)
  | case5 => simp at h
  | case6 done c r _ _ _ ih => exact (ih h).trans (List.suffix_cons _ _)

theorem literal_place_suffix {done input place : List Char}
    (h : literal done input = .error (.badEscape place)) : place <:+ input := by
  fun_induction literal done input with
  | case1 => simp at h
  | case2 => simp at h
  | case3 =>
    simp only [Except.error.injEq, LiteralFault.badEscape.injEq] at h
    simp [← h]
  | case4 done c r d _ ih =>
    exact ((ih h).trans (List.suffix_cons _ _)).trans (List.suffix_cons _ _)
  | case5 =>
    simp only [Except.error.injEq, LiteralFault.badEscape.injEq] at h
    simp [← h]
  | case6 done c r _ _ _ ih => exact (ih h).trans (List.suffix_cons _ _)

end Scan

namespace Scanner

theorem readText_suffix (s : Scanner) (input : List Char) : (s.readText input).2 <:+ input := by
  unfold readText
  split
  · exact (List.suffix_cons _ _).trans (List.suffix_cons _ _)
  · split
    · next h => exact Scan.text_suffix h
    · next h => exact Scan.text_place_suffix h

theorem readText_length_lt {s : Scanner} {input rest : List Char} {token : Token}
    (h : s.readText input = (.ok token, rest)) (hne : input ≠ []) :
    rest.length < input.length := by
  unfold readText at h
  split at h
  · simp only [Prod.mk.injEq] at h
    simp only [← h.2, List.length_cons]
    omega
  · next hopen =>
    split at h
    · next ht =>
      simp only [Prod.mk.injEq] at h
      rw [← h.2]
      exact Scan.text_length_lt ht hne hopen
    · simp at h

theorem readString_suffix (s : Scanner) (rest : List Char) : (s.readString rest).2 <:+ rest := by
  unfold readString
  split
  · next h => exact Scan.literal_suffix h
  · exact List.nil_suffix
  · next h =>
    exact ((List.tail_suffix _).trans (List.tail_suffix _)).trans (Scan.literal_place_suffix h)

theorem readTag_suffix (s : Scanner) (input : List Char) : (s.readTag input).2 <:+ input := by
  unfold readTag
  split
  · exact List.suffix_refl _
  · next c rest =>
    have drop (p : Char → Bool) : rest.dropWhile p <:+ c :: rest :=
      (List.dropWhile_suffix p).trans (List.suffix_cons _ _)
    split
    · exact List.suffix_cons _ _
    split
    · exact drop _
    split
    · exact drop _
    split
    · exact List.suffix_cons _ _
    split
    · exact drop _
    split
    · exact (readString_suffix s rest).trans (List.suffix_cons _ _)
    split
    · exact (List.tail_suffix _).trans (List.suffix_cons _ _)
    · exact List.suffix_refl _

theorem readTag_length_lt {s : Scanner} {input rest : List Char} {token : Token}
    (h : s.readTag input = (.ok token, rest)) (ht : token ≠ .endOfInput) :
    rest.length < input.length := by
  unfold readTag at h
  split at h
  · simp only [Prod.mk.injEq, Except.ok.injEq] at h
    exact absurd h.1.symm ht
  · next c tail =>
    have drop (p : Char → Bool) : (tail.dropWhile p).length < (c :: tail).length :=
      Nat.lt_succ_of_le (List.dropWhile_suffix p).length_le
    split at h
    · simp only [Prod.mk.injEq] at h
      simp [← h.2]
    split at h
    · simp only [Prod.mk.injEq] at h
      exact h.2 ▸ drop _
    split at h
    · simp only [readNumber, Prod.mk.injEq] at h
      exact h.2 ▸ drop _
    split at h
    · simp only [Prod.mk.injEq] at h
      simp [← h.2]
    split at h
    · simp only [Prod.mk.injEq] at h
      exact h.2 ▸ drop _
    split at h
    · have := (readString_suffix s tail).length_le
      rw [h] at this
      exact Nat.lt_succ_of_le this
    split at h
    · simp only [Prod.mk.injEq] at h
      exact h.2 ▸ Nat.lt_succ_of_le (List.tail_suffix _).length_le
    · simp at h

theorem read_suffix (s : Scanner) : s.read.2 <:+ s.rest := by
  unfold read
  split
  · split
    · exact List.nil_suffix
    · exact readText_suffix s s.rest
  · exact (readTag_suffix s _).trans (List.dropWhile_suffix _)

theorem read_length_lt {s : Scanner} {token : Token} {rest : List Char}
    (h : s.read = (.ok token, rest)) (ht : token ≠ .endOfInput) : rest.length < s.rest.length := by
  unfold read at h
  split at h
  · split at h
    · simp only [Prod.mk.injEq, Except.ok.injEq] at h
      exact absurd h.1.symm ht
    · next hne => exact readText_length_lt h (by simpa using hne)
  · exact Nat.lt_of_lt_of_le (readTag_length_lt h ht) (List.dropWhile_suffix _).length_le

/-- What is left after a call is an end of what was left before. -/
theorem next_suffix (s : Scanner) : s.next.2.rest <:+ s.rest := by
  unfold next
  split
  · exact List.suffix_refl _
  · have := read_suffix s
    split
    · next h => simpa [h] using this
    · next h => simpa [h] using this

/-- Every token but the end of the page takes something of the page. -/
theorem next_length_lt {s t : Scanner} {token : Token} (h : s.next = (.ok token, t))
    (ht : token ≠ .endOfInput) : t.rest.length < s.rest.length := by
  unfold next at h
  split at h
  · simp at h
  · split at h
    · next hr =>
      simp only [Prod.mk.injEq, Except.ok.injEq] at h
      obtain ⟨rfl, rfl⟩ := h
      exact read_length_lt hr ht
    · simp at h

end Scanner

end PageScript
