import PageScript.Value.Arithmetic
import Std.Data.ExtTreeMap
/-!
# Named stacks

A stack of slots for each name.  The first binding of a name makes an entry for it, and the entry
stays when the stack in it runs empty: a name whose bindings have all been removed has an entry,
one that was never bound has none.  Both are unbound.
-/

namespace PageScript

/-- The stacks by their names, each with the innermost binding last. -/
structure NamedStacks where
  /-- The entries, some of which may be empty. -/
  entries : Std.ExtTreeMap String (Array Slot)

namespace NamedStacks

/-- The store without entries. -/
def empty : NamedStacks := ⟨∅⟩

/-- Adds an innermost binding, in a new entry if the name has none. -/
def push (name : String) (slot : Slot) (s : NamedStacks) : NamedStacks :=
  ⟨s.entries.insert name ((s.entries.getD name #[]).push slot)⟩

/-- The slot of the innermost binding of a name, if there is one. -/
def innermost? (name : String) (s : NamedStacks) : Option Slot :=
  s.entries[name]?.bind fun stack => stack.back?

/-- The slot of the innermost binding of a name. -/
def peek (name : String) (s : NamedStacks) : Except RunError Slot :=
  match s.innermost? name with
  | some slot => .ok slot
  | none => .error (.undefinedVariable name)

/-- Removes the innermost binding of a name, and gives its slot.  The entry is kept. -/
def pop (name : String) (s : NamedStacks) : Except RunError Slot × NamedStacks :=
  (s.peek name, ⟨s.entries.modify name Array.pop⟩)

/-- Fills the slot of the innermost binding of a name. -/
def replace (name : String) (slot : Slot) (s : NamedStacks) : NamedStacks :=
  ⟨s.entries.modify name fun stack => stack.setIfInBounds (stack.size - 1) slot⟩

/-- Works an operation into the slot of the innermost binding of a name. -/
def apply (name : String) (op : Operation) (operand : Option Value) (s : NamedStacks) :
    Except RunError Unit × NamedStacks :=
  match s.peek name with
  | .error e => (.error e, s)
  | .ok slot =>
    let (result, slot) := slot.apply op operand
    (result, s.replace name slot)

/-- Whether a name has no binding: it has no entry, or an empty one. -/
def isUnbound (name : String) (s : NamedStacks) : Bool :=
  match s.entries[name]? with
  | none => true
  | some stack => stack.isEmpty

/-! Each operation on the stack of its name, and on those of all others. -/

/-- The slots bound to a name, innermost first. -/
def stack (s : NamedStacks) (name : String) : List Slot :=
  (s.entries.getD name #[]).toList.reverse

theorem stack_eq (s : NamedStacks) (name : String) :
    s.stack name = (s.entries[name]?.getD #[]).toList.reverse := by
  rw [stack, Std.ExtTreeMap.getD_eq_getD_getElem?]

theorem stack_empty : empty.stack = fun _ => [] := by
  funext name
  rw [stack_eq, empty, Std.ExtTreeMap.getElem?_empty]
  rfl

theorem innermost?_eq_head? (name : String) (s : NamedStacks) :
    s.innermost? name = (s.stack name).head? := by
  rw [innermost?, stack_eq]
  cases s.entries[name]? with
  | none => rfl
  | some entry => simp [Array.back?_eq_getElem?, List.getLast?_eq_getElem?]

theorem isUnbound_eq (name : String) (s : NamedStacks) :
    s.isUnbound name = (s.stack name).isEmpty := by
  rw [isUnbound, stack_eq]
  cases s.entries[name]? with
  | none => rfl
  | some entry => simp

theorem stack_push (name n : String) (slot : Slot) (s : NamedStacks) :
    (s.push name slot).stack n = if name = n then slot :: s.stack n else s.stack n := by
  by_cases h : name = n <;> simp [push, stack, Std.ExtTreeMap.getD_insert, h]

theorem stack_pop (name n : String) (s : NamedStacks) :
    (s.pop name).2.stack n = if name = n then (s.stack n).tail else s.stack n := by
  rw [stack_eq, stack_eq, pop, Std.ExtTreeMap.getElem?_modify]
  by_cases h : name = n
  · subst h
    cases s.entries[name]? <;> simp
  · simp [h]

theorem stack_replace (name n : String) (slot : Slot) (s : NamedStacks) :
    (s.replace name slot).stack n =
      if name = n then (s.stack n).modifyHead fun _ => slot else s.stack n := by
  rw [stack_eq, stack_eq, replace, Std.ExtTreeMap.getElem?_modify]
  by_cases h : name = n
  · subst h
    cases s.entries[name]? with
    | none => simp
    | some entry =>
      -- A slot is filled at the end of the array, if it has one.
      obtain ⟨slots⟩ := entry
      rcases slots.eq_nil_or_concat with rfl | ⟨below, last, rfl⟩ <;> simp
  · simp [h]

end NamedStacks

end PageScript
