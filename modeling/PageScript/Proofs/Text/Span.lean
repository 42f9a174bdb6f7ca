import Mathlib.Data.List.TakeWhile
/-!
# Splitting where a class of characters ends

A reader takes the longest run of a class of characters off the front.  What it takes depends on the
run and on whether the class goes on behind it.
-/

namespace PageScript

variable {p : Char → Bool} {run rest : List Char} {c : Char}

lemma takeWhile_append_cons (hrun : ∀ d ∈ run, p d) (hc : p c = false) :
    (run ++ c :: rest).takeWhile p = run := by
  rw [List.takeWhile_append_of_pos hrun]
  simp [hc]

lemma dropWhile_append_cons (hrun : ∀ d ∈ run, p d) (hc : p c = false) :
    (run ++ c :: rest).dropWhile p = c :: rest := by
  rw [List.dropWhile_append_of_pos hrun]
  simp [hc]

/-- A run of a class of characters is split off where the class ends. -/
lemma span_append (hrun : ∀ d ∈ run, p d) (hrest : rest.head?.any p = false) :
    (run ++ rest).takeWhile p = run ∧ (run ++ rest).dropWhile p = rest := by
  cases rest with
  | nil => simpa using hrun
  | cons c rest =>
    have hc : p c = false := by simpa using hrest
    exact ⟨takeWhile_append_cons hrun hc, dropWhile_append_cons hrun hc⟩

/-- Behind the run the class does not go on. -/
lemma any_head?_dropWhile (p : Char → Bool) (input : List Char) :
    (input.dropWhile p).head?.any p = false := by
  cases hdrop : input.dropWhile p with
  | nil => rfl
  | cons c rest => simpa [hdrop] using List.head?_dropWhile_not p input

end PageScript
