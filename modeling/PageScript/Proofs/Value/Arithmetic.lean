import PageScript.Proofs.Value.Coercion
import Mathlib.Data.List.Basic
/-!
# Operations on values

Both operands are taken for numbers, the left one first.  So an operation ends in one of three ways:
the left operand is refused, or the right one is, or there are two numbers.  Two numbers always have
a result, but for the quotient of two integers of which the second is zero; the result is an integer
if both are.

An operation that fails leaves the slot that it was to be worked into as it was.  So of a number of
operations those that fail make no difference to the others.
-/

namespace PageScript

/-! ## Numbers -/

def Number.isInt : Number → Bool
  | .int _ => true
  | .double _ => false

namespace Operation

variable {op : Operation} {a b n : Number} {e : RunError}

/-- Only the quotient of an integer by the integer zero is missing. -/
lemma onNumbers_eq_error_iff : op.onNumbers a b = .error e ↔
    (op = .divide ∧ (∃ k, a = .int k) ∧ b = .int 0) ∧ e = .divisionByZero := by
  cases a with
  | double x => simp [onNumbers]
  | int a =>
    cases b with
    | double y => simp [onNumbers]
    | int b =>
      cases op with
      | add | subtract | multiply => simp [onNumbers, onInts, Except.map]
      | divide => by_cases hb : b = 0 <;> simp [onNumbers, onInts, Except.map, hb, eq_comm]

/-- The result of two integers is an integer, and that of any other numbers a double. -/
lemma isInt_of_onNumbers (h : op.onNumbers a b = .ok n) : n.isInt = (a.isInt && b.isInt) := by
  have hdouble (h : Except.ok (.double (op.onDoubles a.toDouble b.toDouble)) =
      (Except.ok n : Except RunError Number)) : n.isInt = false := by
    rw [← Except.ok.inj h]
    rfl
  cases a with
  | double x => exact hdouble h
  | int a =>
    cases b with
    | double y => exact hdouble h
    | int b =>
      rw [onNumbers] at h
      cases hresult : op.onInts a b with
      | error e => simp [hresult, Except.map] at h
      | ok c =>
        obtain rfl : Number.int c = n := by simpa [hresult, Except.map] using h
        rfl

end Operation

/-! ## Values -/

namespace Value

variable {op : Operation} {left right : Option Value} {a b : Number} {s : String} {e : RunError}

lemma calculate_of_left (h : IsNonNumeral left s) :
    calculate op left right = .error (.notANumber s) := by
  rw [calculate, h.coerce_eq]
  rfl

lemma calculate_of_right (ha : StandsFor left a) (h : IsNonNumeral right s) :
    calculate op left right = .error (.notANumber s) := by
  rw [calculate, coerce_eq_ok_iff.2 ha, h.coerce_eq]
  rfl

lemma calculate_of_numbers (ha : StandsFor left a) (hb : StandsFor right b) :
    calculate op left right = (op.onNumbers a b).map .number := by
  rw [calculate, coerce_eq_ok_iff.2 ha, coerce_eq_ok_iff.2 hb]
  simp only [bind, Except.bind]
  cases op.onNumbers a b <;> rfl

/-- An operation fails if the left operand is refused, if that is taken and the right one is
refused, or if an integer is divided by zero. -/
lemma calculate_eq_error_iff : calculate op left right = .error e ↔
    (∃ s, IsNonNumeral left s ∧ e = .notANumber s) ∨
      (∃ a s, StandsFor left a ∧ IsNonNumeral right s ∧ e = .notANumber s) ∨
      (∃ k, op = .divide ∧ StandsFor left (.int k) ∧ StandsFor right (.int 0) ∧
        e = .divisionByZero) := by
  constructor
  · intro h
    rcases operands_cases left right with ⟨s, hs⟩ | ⟨a, s, ha, hs⟩ | ⟨a, b, ha, hb⟩
    · rw [calculate_of_left hs] at h
      exact .inl ⟨s, hs, (Except.error.inj h).symm⟩
    · rw [calculate_of_right ha hs] at h
      exact .inr (.inl ⟨a, s, ha, hs, (Except.error.inj h).symm⟩)
    · rw [calculate_of_numbers ha hb] at h
      cases hn : op.onNumbers a b with
      | ok n => simp [hn, Except.map] at h
      | error e' =>
        obtain rfl : e' = e := by simpa [hn, Except.map] using h
        obtain ⟨⟨hop, ⟨k, rfl⟩, rfl⟩, rfl⟩ := Operation.onNumbers_eq_error_iff.1 hn
        exact .inr (.inr ⟨k, hop, ha, hb, rfl⟩)
  · rintro (⟨s, hs, rfl⟩ | ⟨a, s, ha, hs, rfl⟩ | ⟨k, rfl, ha, hb, rfl⟩)
    · exact calculate_of_left hs
    · exact calculate_of_right ha hs
    · rw [calculate_of_numbers ha hb]
      rfl

/-- An operation succeeds if both operands are taken for numbers that have a result. -/
lemma calculate_eq_ok_iff {v : Value} : calculate op left right = .ok v ↔
    ∃ a b n, StandsFor left a ∧ StandsFor right b ∧ op.onNumbers a b = .ok n ∧
      v = .number n := by
  constructor
  · intro h
    rcases operands_cases left right with ⟨s, hs⟩ | ⟨a, s, ha, hs⟩ | ⟨a, b, ha, hb⟩
    · simp [calculate_of_left hs] at h
    · simp [calculate_of_right ha hs] at h
    · rw [calculate_of_numbers ha hb] at h
      cases hn : op.onNumbers a b with
      | error e => simp [hn, Except.map] at h
      | ok n => exact ⟨a, b, n, ha, hb, hn, by simpa [hn, Except.map, eq_comm] using h⟩
  · rintro ⟨a, b, n, ha, hb, hn, rfl⟩
    rw [calculate_of_numbers ha hb, hn]
    rfl

lemma calculate_congr_left {left' : Option Value} (h : coerce left = coerce left') :
    calculate op left right = calculate op left' right := by
  rw [calculate, calculate, h]

lemma calculate_congr_right {right' : Option Value} (h : coerce right = coerce right') :
    calculate op left right = calculate op left right' := by
  rw [calculate, calculate, h]

lemma order_of_left (h : IsNonNumeral left s) : order left right = .error (.notANumber s) := by
  rw [order, h.coerce_eq]
  rfl

lemma order_of_right (ha : StandsFor left a) (h : IsNonNumeral right s) :
    order left right = .error (.notANumber s) := by
  rw [order, coerce_eq_ok_iff.2 ha, h.coerce_eq]
  rfl

lemma order_of_numbers (ha : StandsFor left a) (hb : StandsFor right b) :
    order left right = .ok (a.order b) := by
  rw [order, coerce_eq_ok_iff.2 ha, coerce_eq_ok_iff.2 hb]
  rfl

end Value

/-! ## Slots -/

namespace Slot

open Value

variable {op : Operation} {operand : Option Value} {held : Slot} {e : RunError}

lemma fst_apply_eq_error_iff :
    (held.apply op operand).1 = .error e ↔ calculate op held operand = .error e := by
  unfold apply
  cases calculate op held operand <;> simp

lemma fst_apply_eq_ok_iff :
    (held.apply op operand).1 = .ok () ↔ ∃ v, calculate op held operand = .ok v := by
  unfold apply
  cases calculate op held operand <;> simp

lemma snd_apply_of_ok {v : Value} (h : calculate op held operand = .ok v) :
    (held.apply op operand).2 = some v := by
  rw [apply, h]

lemma snd_apply_of_error (h : (held.apply op operand).1 = .error e) :
    (held.apply op operand).2 = held := by
  rw [apply, fst_apply_eq_error_iff.1 h]

/-- Works operations into a slot, one after another: their results, and what the slot holds in the
end. -/
def applyAll : List (Operation × Option Value) → Slot → List (Except RunError Unit) × Slot
  | [], held => ([], held)
  | (op, operand) :: calls, held =>
    let (result, next) := held.apply op operand
    let (results, last) := applyAll calls next
    (result :: results, last)

/-- Those of the operations that succeed, where all are worked into a slot. -/
def succeeding (calls : List (Operation × Option Value)) (held : Slot) :
    List (Operation × Option Value) :=
  ((calls.zip (held.applyAll calls).1).filter fun call => call.2.isOk).map (·.1)

section Calls

variable {calls : List (Operation × Option Value)}

lemma succeeding_cons_of_ok (h : (held.apply op operand).1 = .ok ()) :
    held.succeeding ((op, operand) :: calls) =
      (op, operand) :: (held.apply op operand).2.succeeding calls := by
  simp [succeeding, applyAll, h, Except.isOk, Except.toBool]

lemma succeeding_cons_of_error (h : (held.apply op operand).1 = .error e) :
    held.succeeding ((op, operand) :: calls) = held.succeeding calls := by
  simp [succeeding, applyAll, h, snd_apply_of_error h, Except.isOk, Except.toBool]

/-- Operations that fail can be left out: the others succeed without them, and the slot comes to
hold the same. -/
lemma applyAll_succeeding (calls : List (Operation × Option Value)) (held : Slot) :
    held.applyAll (held.succeeding calls) =
      (List.replicate (held.succeeding calls).length (.ok ()), (held.applyAll calls).2) := by
  induction calls generalizing held with
  | nil => rfl
  | cons call calls ih =>
    obtain ⟨op, operand⟩ := call
    cases h : (held.apply op operand).1 with
    | ok _ =>
      rw [succeeding_cons_of_ok h]
      simp only [applyAll, h, ih, List.length_cons, List.replicate_succ]
    | error e =>
      rw [succeeding_cons_of_error h, ih]
      simp only [applyAll, snd_apply_of_error h]

end Calls

/-- What an operation makes of a slot and an operand is a matter of the numbers that they stand for.
It fails if one of them is a string that stands for none, and names the first of these; or if it
divides one integer by the integer zero.  Otherwise it succeeds, and the slot holds the result, which
is an integer if both were.  An operation that fails leaves the slot as it was, and could be left out
of any number of operations. -/
theorem apply_coerced (op : Operation) (operand : Option Value) (held : Slot)
    (calls : List (Operation × Option Value)) :
    (∀ s, (held.apply op operand).1 = .error (.notANumber s) ↔
        IsNonNumeral held s ∨ (∃ a, StandsFor held a) ∧ IsNonNumeral operand s) ∧
      ((held.apply op operand).1 = .error .divisionByZero ↔
        op = .divide ∧ ∃ k, StandsFor held (.int k) ∧ StandsFor operand (.int 0)) ∧
      (∀ e, (held.apply op operand).1 = .error e →
        ((∃ s, e = .notANumber s) ∨ e = .divisionByZero) ∧ (held.apply op operand).2 = held) ∧
      ((held.apply op operand).1 = .ok () →
        ∃ a b n, StandsFor held a ∧ StandsFor operand b ∧ op.onNumbers a b = .ok n ∧
          (held.apply op operand).2 = some (.number n) ∧ (n.isInt ↔ a.isInt ∧ b.isInt)) ∧
      (∀ a, StandsFor held a →
        (Slot.apply op operand (some (.number a))).1 = (held.apply op operand).1 ∧
        ((held.apply op operand).1 = .ok () →
          (Slot.apply op operand (some (.number a))).2 = (held.apply op operand).2)) ∧
      (∀ b, StandsFor operand b → held.apply op (some (.number b)) = held.apply op operand) ∧
      held.applyAll (held.succeeding calls) =
        (List.replicate (held.succeeding calls).length (.ok ()), (held.applyAll calls).2) := by
  refine ⟨fun s => ?_, ?_, fun e he => ⟨?_, snd_apply_of_error he⟩, fun hok => ?_, fun a ha => ?_,
    fun b hb => ?_, applyAll_succeeding calls held⟩
  · rw [fst_apply_eq_error_iff, calculate_eq_error_iff]
    simp
  · rw [fst_apply_eq_error_iff, calculate_eq_error_iff]
    simp
  · rw [fst_apply_eq_error_iff, calculate_eq_error_iff] at he
    rcases he with ⟨s, -, rfl⟩ | ⟨a, s, -, -, rfl⟩ | ⟨k, -, -, -, rfl⟩
    · exact .inl ⟨s, rfl⟩
    · exact .inl ⟨s, rfl⟩
    · exact .inr rfl
  · obtain ⟨v, hv⟩ := fst_apply_eq_ok_iff.1 hok
    obtain ⟨a, b, n, ha, hb, hn, rfl⟩ := calculate_eq_ok_iff.1 hv
    refine ⟨a, b, n, ha, hb, hn, snd_apply_of_ok hv, ?_⟩
    rw [Operation.isInt_of_onNumbers hn, Bool.and_eq_true]
  · unfold apply
    rw [calculate_congr_left ha.coerce_number]
    cases calculate op held operand <;> simp
  · unfold apply
    rw [calculate_congr_right hb.coerce_number]

/-- A string may be the integer zero that there is no quotient by. -/
example : Slot.apply .divide (some (.string "-0")) (some (.int 7)) =
    (.error .divisionByZero, some (.int 7)) := by decide

end Slot

end PageScript
