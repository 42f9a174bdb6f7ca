import PageScript.Proofs.Text.Span
import PageScript.Text.Blank
import PageScript.Text.Line
import Mathlib.Tactic.Lemma
/-!
# Lines and blanks

The lines of a text can be cut off one at a time, and blanks at either end of a line do not survive
trimming.  A carriage return is a blank, so it makes no difference to a trimmed line whether it
was part of the line end.
-/

namespace PageScript.Text

/-! ## Trimming -/

section Trimming

variable {left s right : List Char}

/-- A text with no blank at either end. -/
structure IsTrimmed (s : List Char) : Prop where
  head : ∀ c ∈ s.head?, isBlank c = false
  last : ∀ c ∈ s.getLast?, isBlank c = false

lemma IsTrimmed.of_forall (h : ∀ c ∈ s, isBlank c = false) : IsTrimmed s :=
  ⟨fun c hc => h c (List.mem_of_mem_head? hc), fun c hc => h c (List.mem_of_mem_getLast? hc)⟩

/-- What stands between two characters that are no blanks keeps its blanks. -/
lemma IsTrimmed.enclosed {first last : Char} (hfirst : isBlank first = false)
    (hlast : isBlank last = false) (s : List Char) : IsTrimmed (first :: (s ++ [last])) where
  head := by simpa using hfirst
  last := by
    rw [← List.cons_append, List.getLast?_concat]
    simpa using hlast

lemma dropWhile_of_head? (h : ∀ c ∈ s.head?, isBlank c = false) : s.dropWhile isBlank = s := by
  cases s with
  | nil => rfl
  | cons c s => rw [List.dropWhile_cons_of_neg (by simp [h c rfl])]

lemma trim_of_blanks (h : ∀ c ∈ s, isBlank c) : trim s = [] := by
  rw [trim, List.dropWhile_eq_nil_iff.2 h]
  rfl

lemma IsTrimmed.trim_eq (h : IsTrimmed s) : trim s = s := by
  rw [trim, dropWhile_of_head? h.head, dropWhile_of_head?, List.reverse_reverse]
  rw [List.head?_reverse]
  exact h.last

lemma trim_append_left (hleft : ∀ c ∈ left, isBlank c) (s : List Char) :
    trim (left ++ s) = trim s := by
  rw [trim, List.dropWhile_append_of_pos hleft]
  rfl

lemma trim_append_right (hright : ∀ c ∈ right, isBlank c) (s : List Char) :
    trim (s ++ right) = trim s := by
  have hreverse : ∀ c ∈ right.reverse, isBlank c := by simpa using hright
  rw [trim, trim, List.dropWhile_append]
  split
  · next hempty =>
    rw [List.isEmpty_iff.1 hempty, List.dropWhile_eq_nil_iff.2 hright]
  · rw [List.reverse_append, List.dropWhile_append_of_pos hreverse]

/-- A text between blanks is what is left of them. -/
lemma IsTrimmed.trim_between (h : IsTrimmed s) (hleft : ∀ c ∈ left, isBlank c)
    (hright : ∀ c ∈ right, isBlank c) : trim (left ++ s ++ right) = s := by
  rw [trim_append_right hright, trim_append_left hleft, h.trim_eq]

lemma trim_dropReturn (line : List Char) : trim (dropReturn line) = trim line := by
  unfold dropReturn
  split
  · next hlast =>
    obtain ⟨front, rfl⟩ := List.getLast?_eq_some_iff.1 hlast
    rw [List.dropLast_concat, trim_append_right (by simp; decide)]
  · rfl

lemma exists_dropWhile_eq (s : List Char) :
    ∃ right, (∀ c ∈ right, isBlank c) ∧ s.dropWhile isBlank = trim s ++ right := by
  refine ⟨((s.dropWhile isBlank).reverse.takeWhile isBlank).reverse,
    fun c hc => List.mem_takeWhile_imp (List.mem_reverse.1 hc), ?_⟩
  rw [trim, ← List.reverse_append, List.takeWhile_append_dropWhile, List.reverse_reverse]

/-- A text is what is left of it between blanks. -/
lemma exists_eq_trim_between (s : List Char) :
    ∃ left right, (∀ c ∈ left, isBlank c) ∧ (∀ c ∈ right, isBlank c) ∧
      s = left ++ trim s ++ right := by
  obtain ⟨right, hright, hrest⟩ := exists_dropWhile_eq s
  refine ⟨s.takeWhile isBlank, right, fun c hc => List.mem_takeWhile_imp hc, hright, ?_⟩
  rw [List.append_assoc, ← hrest, List.takeWhile_append_dropWhile]

lemma isTrimmed_trim (s : List Char) : IsTrimmed (trim s) where
  head c hc := by
    obtain ⟨right, -, hrest⟩ := exists_dropWhile_eq s
    obtain ⟨rest, htrim⟩ := List.head?_eq_some_iff.1 hc
    have h := any_head?_dropWhile isBlank s
    rw [hrest, htrim] at h
    exact h
  last c hc := by
    have h := any_head?_dropWhile isBlank (s.dropWhile isBlank).reverse
    rw [trim, List.getLast?_reverse] at hc
    rw [hc] at h
    exact h

lemma trim_eq_nil_iff : trim s = [] ↔ ∀ c ∈ s, isBlank c := by
  refine ⟨fun h => ?_, trim_of_blanks⟩
  obtain ⟨left, right, hleft, hright, hs⟩ := exists_eq_trim_between s
  rw [h, List.append_nil] at hs
  rw [hs]
  exact List.forall_mem_append.2 ⟨hleft, hright⟩

/-- Trimming leaves a first character that is no blank. -/
lemma exists_trim_cons {c : Char} (h : isBlank c = false) (s : List Char) :
    ∃ rest, trim (c :: s) = c :: rest := by
  rw [trim, List.dropWhile_cons_of_neg (by simp [h]), List.reverse_cons, List.dropWhile_append]
  split
  · exact ⟨[], by simp [h]⟩
  · exact ⟨(s.reverse.dropWhile isBlank).reverse, by simp⟩

/-- No capital letter is a blank. -/
lemma toLower_of_isBlank {c : Char} (h : isBlank c) : c.toLower = c := by
  have hcapital : ∀ n < 26, isBlank (Char.ofNat (65 + n)) = false := by decide
  refine dif_neg ?_
  rintro ⟨hfirst, hlast⟩
  have hfirst : 65 ≤ c.toNat := hfirst
  have hlast : c.toNat ≤ 90 := hlast
  have hc : Char.ofNat (65 + (c.toNat - 65)) = c := by
    rw [Nat.add_sub_cancel' hfirst, Char.ofNat_toNat]
  have hblank := hcapital (c.toNat - 65) (by omega)
  rw [hc, h] at hblank
  contradiction

end Trimming

/-! ## Lines -/

section Lines

variable {line : List Char}

lemma linesFrom_append (pending a rest : List Char) :
    linesFrom pending (a ++ '\n' :: rest) =
      linesFrom pending (a ++ ['\n']) ++ linesFrom [] rest := by
  induction a generalizing pending with
  | nil => simp [linesFrom]
  | cons c a ih =>
    by_cases hc : c = '\n'
    · subst hc
      simp only [List.cons_append, linesFrom, ih]
    · simp only [List.cons_append, linesFrom, ih]

/-- What follows a line feed is cut into lines on its own. -/
lemma lines_append (a rest : List Char) :
    lines (a ++ '\n' :: rest) = lines (a ++ ['\n']) ++ lines rest :=
  linesFrom_append [] a rest

lemma linesFrom_of_notMem (h : '\n' ∉ line) (pending rest : List Char) :
    linesFrom pending (line ++ rest) = linesFrom (line.reverse ++ pending) rest := by
  induction line generalizing pending with
  | nil => rfl
  | cons c line ih =>
    obtain ⟨hc, hline⟩ := not_or.1 (List.mem_cons.not.1 h)
    rw [List.cons_append, linesFrom, ih hline]
    · simp
    · exact fun hfeed => hc hfeed.symm

/-- A line with its end is one line. -/
lemma lines_line (h : '\n' ∉ line) : lines (line ++ ['\n']) = [dropReturn line] := by
  rw [lines, linesFrom_of_notMem h]
  simp [linesFrom]

end Lines

end PageScript.Text
