import PageScript.Value.Arithmetic
/-!
# Bindings of variables

The bindings in force, innermost first.  A binding hides those of the same name behind it until it
is removed, so each name has a stack of bindings of its own.
-/

namespace PageScript

/-- The bindings in force, innermost first. -/
abbrev Bindings := List (String × Slot)

namespace Bindings

/-- The slots bound to a name, innermost first. -/
def stack (b : Bindings) (name : String) : List Slot :=
  (b.filter fun entry => entry.1 == name).map (·.2)

/-- Whether a name has no binding. -/
def isUnbound (name : String) (b : Bindings) : Bool := (b.lookup name).isNone

/-- Adds an innermost binding. -/
def push (name : String) (slot : Slot) (b : Bindings) : Bindings := (name, slot) :: b

/-- The slot of the innermost binding of a name. -/
def peek (name : String) (b : Bindings) : Except RunError Slot :=
  match b.lookup name with
  | some slot => .ok slot
  | none => .error (.undefinedVariable name)

/-- Removes the innermost binding of a name, and gives its slot. -/
def pop (name : String) (b : Bindings) : Except RunError Slot × Bindings :=
  (peek name b, b.eraseP fun entry => entry.1 == name)

/-- Fills the slot of the innermost binding of a name. -/
def replace (name : String) (slot : Slot) : Bindings → Bindings
  | [] => []
  | entry :: rest =>
    if entry.1 = name then (name, slot) :: rest else entry :: replace name slot rest

/-- Works an operation into the slot of the innermost binding of a name. -/
def apply (name : String) (op : Operation) (operand : Option Value) (b : Bindings) :
    Except RunError Unit × Bindings :=
  match peek name b with
  | .error e => (.error e, b)
  | .ok slot =>
    let (result, slot) := slot.apply op operand
    (result, replace name slot b)

/-- The value of a variable. -/
def value (name : String) (b : Bindings) : Except RunError Value :=
  (peek name b).map Slot.value

/-! Each operation on the stack of its name, and on those of all others. -/

theorem stack_cons (name n : String) (slot : Slot) (b : Bindings) :
    stack ((name, slot) :: b) n = if name = n then slot :: stack b n else stack b n := by
  by_cases h : name = n <;> simp [stack, h]

theorem lookup_eq_head? (name : String) (b : Bindings) :
    b.lookup name = (b.stack name).head? := by
  induction b with
  | nil => rfl
  | cons entry rest ih =>
    obtain ⟨other, slot⟩ := entry
    rw [stack_cons, List.lookup_cons]
    by_cases h : name = other
    · simp [h]
    · rw [if_neg (Ne.symm h), ← ih, beq_false_of_ne h]

theorem isUnbound_eq (name : String) (b : Bindings) :
    b.isUnbound name = (b.stack name).isEmpty := by
  rw [isUnbound, lookup_eq_head?]
  cases b.stack name <;> rfl

theorem stack_push (name n : String) (slot : Slot) (b : Bindings) :
    (b.push name slot).stack n = if name = n then slot :: b.stack n else b.stack n :=
  stack_cons name n slot b

theorem stack_pop (name n : String) (b : Bindings) :
    (b.pop name).2.stack n = if name = n then (b.stack n).tail else b.stack n := by
  rw [pop]
  induction b with
  | nil => simp [stack]
  | cons entry rest ih =>
    obtain ⟨other, slot⟩ := entry
    simp only at ih
    by_cases h : other = name
    · by_cases hn : name = n <;> simp [stack_cons, h, hn]
    · by_cases hn : other = n
      · subst hn
        simp [h, stack_cons, ih, Ne.symm h]
      · simp [h, hn, stack_cons, ih]

theorem stack_replace (name n : String) (slot : Slot) (b : Bindings) :
    (b.replace name slot).stack n =
      if name = n then (b.stack n).modifyHead fun _ => slot else b.stack n := by
  induction b with
  | nil => simp [replace, stack]
  | cons entry rest ih =>
    obtain ⟨other, held⟩ := entry
    by_cases h : other = name
    · by_cases hn : name = n <;> simp [replace, stack_cons, h, hn]
    · by_cases hn : other = n
      · subst hn
        simp [replace, h, stack_cons, ih, Ne.symm h]
      · simp [replace, h, hn, stack_cons, ih]

end Bindings

end PageScript
