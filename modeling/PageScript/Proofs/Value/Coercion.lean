import PageScript.Proofs.Decimal.Numeral
import PageScript.Value.Arithmetic
/-!
# What values stand for where a number is wanted

A number stands for itself, a value that is absent for the integer zero, and a string for what it
denotes as a numeral.  A string that denotes nothing is refused by its own name; nothing else is.
-/

namespace PageScript.Value

/-- `StandsFor v n` holds if `n` is the number that is meant by `v` where a number is wanted. -/
inductive StandsFor : Option Value → Number → Prop
  | absent : StandsFor none (.int 0)
  | number (n : Number) : StandsFor (some (.number n)) n
  | string {s : String} {n : Number} (m : Decimal.Numeral) (text_eq : m.text = s.toList)
      (denotes : m.Denotes n) : StandsFor (some (.string s)) n

/-- A string that stands for no number. -/
def IsNonNumeral (v : Option Value) (s : String) : Prop :=
  v = some (.string s) ∧ ∀ n, ¬ StandsFor v n

variable {v : Option Value} {a b : Number} {s : String} {e : RunError}

lemma coerce_eq_ok_iff : coerce v = .ok a ↔ StandsFor v a := by
  constructor
  · intro h
    unfold coerce at h
    split at h
    · obtain rfl := Except.ok.inj h
      exact .absent
    · obtain rfl := Except.ok.inj h
      exact .number _
    · next s =>
      split at h
      · next n hn =>
        obtain rfl := Except.ok.inj h
        obtain ⟨m, hm, hdenotes⟩ := Decimal.Numeral.ofText?_eq_some_iff.1 hn
        exact .string m hm hdenotes
      · cases h
  · rintro (_ | _ | ⟨m, hm, hdenotes⟩)
    · rfl
    · rfl
    · rw [coerce, Decimal.Numeral.ofText?_eq_some_iff.2 ⟨m, hm, hdenotes⟩]

lemma coerce_eq_error_iff : coerce v = .error e ↔ ∃ s, IsNonNumeral v s ∧ e = .notANumber s := by
  constructor
  · intro h
    have hnone (n : Number) : ¬ StandsFor v n := by
      intro hn
      rw [coerce_eq_ok_iff.2 hn] at h
      cases h
    unfold coerce at h
    split at h
    · cases h
    · cases h
    · next s =>
      split at h
      · cases h
      · exact ⟨s, ⟨rfl, hnone⟩, (Except.error.inj h).symm⟩
  · rintro ⟨s, ⟨rfl, hnone⟩, rfl⟩
    cases hs : Number.ofText? s.toList with
    | none => rw [coerce, hs]
    | some n => exact absurd (coerce_eq_ok_iff.1 (by rw [coerce, hs])) (hnone n)

/-- A value stands for one number at most. -/
theorem StandsFor.unique (ha : StandsFor v a) (hb : StandsFor v b) : a = b :=
  Except.ok.inj ((coerce_eq_ok_iff.2 ha).symm.trans (coerce_eq_ok_iff.2 hb))

/-- A value may be replaced by the number that it stands for. -/
lemma StandsFor.coerce_number (h : StandsFor v a) : coerce (some (.number a)) = coerce v :=
  (coerce_eq_ok_iff.2 h).symm

lemma isNonNumeral_iff : IsNonNumeral v s ↔ coerce v = .error (.notANumber s) := by
  rw [coerce_eq_error_iff]
  simp

lemma IsNonNumeral.coerce_eq (h : IsNonNumeral v s) : coerce v = .error (.notANumber s) :=
  isNonNumeral_iff.1 h

/-- A value stands for a number, or is a string that does not. -/
lemma exists_standsFor_or (v : Option Value) :
    (∃ a, StandsFor v a) ∨ ∃ s, IsNonNumeral v s := by
  cases h : coerce v with
  | ok a => exact .inl ⟨a, coerce_eq_ok_iff.1 h⟩
  | error e =>
    obtain ⟨s, hs, -⟩ := coerce_eq_error_iff.1 h
    exact .inr ⟨s, hs⟩

/-- Of two operands the left one is refused, or it is not and the right one is, or both stand for
numbers. -/
lemma operands_cases (left right : Option Value) :
    (∃ s, IsNonNumeral left s) ∨ (∃ a s, StandsFor left a ∧ IsNonNumeral right s) ∨
      ∃ a b, StandsFor left a ∧ StandsFor right b := by
  rcases exists_standsFor_or left with ⟨a, ha⟩ | hleft
  · rcases exists_standsFor_or right with ⟨b, hb⟩ | ⟨s, hs⟩
    · exact .inr (.inr ⟨a, b, ha, hb⟩)
    · exact .inr (.inl ⟨a, s, ha, hs⟩)
  · exact .inl hleft

end PageScript.Value
