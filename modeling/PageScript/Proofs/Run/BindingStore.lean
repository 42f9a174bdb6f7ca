import PageScript.Proofs.Value.Arithmetic
import Mathlib.Logic.Function.Basic
/-!
# Stores of bindings

In whatever way bindings are kept, what is done with those of one name goes on as if that name had a
plain list of slots: the replies are the same, and only the list of that name changes.  So what is
done with one name is not felt by any other, and from the replies nobody can tell in which way the
bindings are kept.

Two calls on different names may leave a store in another state if they change places.  So it is not
the stores that are compared, but the stacks of the names in them, and no reply depends on more than
these.
-/

namespace PageScript

/-- A way to keep bindings: what may be done with those of a name, and what this does to the slots
that are bound to it. -/
class BindingStore (σ : Type) where
  /-- Nothing is bound. -/
  empty : σ
  /-- Adds an innermost binding of a name. -/
  push : String → Slot → σ → σ
  /-- Removes the innermost binding of a name, and gives its slot. -/
  pop : String → σ → Except RunError Slot × σ
  /-- The slot of the innermost binding of a name. -/
  peek : String → σ → Except RunError Slot
  /-- Fills the slot of the innermost binding of a name. -/
  replace : String → Slot → σ → σ
  /-- Works an operation into the slot of the innermost binding of a name. -/
  apply : String → Operation → Option Value → σ → Except RunError Unit × σ
  /-- Whether a name has no binding. -/
  isUnbound : String → σ → Bool
  /-- The slots bound to a name, innermost first. -/
  stack : σ → String → List Slot
  stack_empty : stack empty = fun _ => []
  peek_eq (name : String) (s : σ) : peek name s =
    match stack s name with
    | slot :: _ => .ok slot
    | [] => .error (.undefinedVariable name)
  isUnbound_eq (name : String) (s : σ) : isUnbound name s = (stack s name).isEmpty
  fst_pop (name : String) (s : σ) : (pop name s).1 = peek name s
  apply_eq (name : String) (op : Operation) (operand : Option Value) (s : σ) :
    apply name op operand s =
      match peek name s with
      | .ok slot => ((slot.apply op operand).1, replace name (slot.apply op operand).2 s)
      | .error e => (.error e, s)
  stack_push (name n : String) (slot : Slot) (s : σ) :
    stack (push name slot s) n = if name = n then slot :: stack s n else stack s n
  stack_pop (name n : String) (s : σ) :
    stack (pop name s).2 n = if name = n then (stack s n).tail else stack s n
  stack_replace (name n : String) (slot : Slot) (s : σ) :
    stack (replace name slot s) n =
      if name = n then (stack s n).modifyHead fun _ => slot else stack s n
  /-- Where there is nothing to remove, nothing changes. -/
  snd_pop_of_nil {name : String} {s : σ} : stack s name = [] → (pop name s).2 = s
  /-- To fill a slot with what it holds changes nothing. -/
  replace_head {name : String} {slot : Slot} {below : List Slot} {s : σ} :
    stack s name = slot :: below → replace name slot s = s

namespace BindingStore

/-! ## Calls -/

/-- What may be done with the bindings of one name. -/
inductive Access where
  /-- To add a binding. -/
  | push (slot : Slot)
  /-- To remove the innermost binding. -/
  | pop
  /-- To look at the innermost binding. -/
  | peek
  /-- To work an operation into the innermost binding. -/
  | apply (op : Operation) (operand : Option Value)
  /-- To ask whether there is no binding. -/
  | isUnbound

/-- What is given for an access that does not fail. -/
inductive Reply where
  /-- It is done. -/
  | done
  /-- The slot of a binding. -/
  | slot (s : Slot)
  /-- The answer to a question. -/
  | answer (b : Bool)
deriving DecidableEq

/-- An access to the bindings of a name. -/
structure Call where
  /-- The name. -/
  name : String
  /-- What is done with its bindings. -/
  access : Access

/-- The reply to a call, and the bindings after it. -/
def serve {σ : Type} [BindingStore σ] : Call → σ → Except RunError Reply × σ
  | ⟨name, .push slot⟩, s => (.ok .done, push name slot s)
  | ⟨name, .pop⟩, s => ((pop name s).1.map .slot, (pop name s).2)
  | ⟨name, .peek⟩, s => ((peek name s).map .slot, s)
  | ⟨name, .apply op operand⟩, s =>
    ((apply name op operand s).1.map fun _ => .done, (apply name op operand s).2)
  | ⟨name, .isUnbound⟩, s => (.ok (.answer (isUnbound name s)), s)

/-- The replies to calls, one after the other, and the state after the last one, if `serve` replies
to a single call. -/
def serveAll {σ : Type} (serve : Call → σ → Except RunError Reply × σ) :
    List Call → σ → List (Except RunError Reply) × σ
  | [], s => ([], s)
  | call :: calls, s =>
    ((serve call s).1 :: (serveAll serve calls (serve call s).2).1,
      (serveAll serve calls (serve call s).2).2)

/-- The replies to calls where nothing is bound at first. -/
def replies (σ : Type) [BindingStore σ] (calls : List Call) : List (Except RunError Reply) :=
  (serveAll serve calls (empty : σ)).1

/-- The bindings after calls where nothing is bound at first. -/
def after (σ : Type) [BindingStore σ] (calls : List Call) : σ := (serveAll serve calls empty).2

section ServeAll

variable {σ τ : Type} {serve : Call → σ → Except RunError Reply × σ}
  {serve' : Call → τ → Except RunError Reply × τ}

lemma serveAll_append (calls later : List Call) (s : σ) :
    serveAll serve (calls ++ later) s =
      ((serveAll serve calls s).1 ++ (serveAll serve later (serveAll serve calls s).2).1,
        (serveAll serve later (serveAll serve calls s).2).2) := by
  induction calls generalizing s with
  | nil => rfl
  | cons call calls ih => simp only [List.cons_append, serveAll, ih]

/-- States of two kinds that go together by a view, and do so after any call with the same reply,
give the same replies to all calls. -/
lemma serveAll_view {view : σ → τ}
    (h : ∀ call s, serve' call (view s) = ((serve call s).1, view (serve call s).2))
    (calls : List Call) (s : σ) :
    serveAll serve' calls (view s) =
      ((serveAll serve calls s).1, view (serveAll serve calls s).2) := by
  induction calls generalizing s with
  | nil => rfl
  | cons call calls ih => simp only [serveAll, h, ih]

end ServeAll

/-! ## A list for each name -/

/-- A list of slots for each name, innermost first. -/
abbrev Stacks := String → List Slot

/-- What an access to a name comes to on the list of that name, and the list after it. -/
def Access.onList (name : String) : Access → List Slot → Except RunError Reply × List Slot
  | .push slot, stack => (.ok .done, slot :: stack)
  | .isUnbound, stack => (.ok (.answer stack.isEmpty), stack)
  | .pop, slot :: below => (.ok (.slot slot), below)
  | .peek, slot :: below => (.ok (.slot slot), slot :: below)
  | .apply op operand, slot :: below =>
    match Value.calculate op slot operand with
    | .ok v => (.ok .done, some v :: below)
    | .error e => (.error e, slot :: below)
  | _, [] => (.error (.undefinedVariable name), [])

namespace Access

lemma snd_onList_pop (name : String) (stack : List Slot) :
    (pop.onList name stack).2 = stack.tail := by
  cases stack <;> rfl

lemma snd_onList_peek (name : String) (stack : List Slot) :
    (peek.onList name stack).2 = stack := by
  cases stack <;> rfl

lemma onList_apply_cons (name : String) (op : Operation) (operand : Option Value) (slot : Slot)
    (below : List Slot) :
    (apply op operand).onList name (slot :: below) =
      ((slot.apply op operand).1.map fun _ => .done, (slot.apply op operand).2 :: below) := by
  rw [onList, Slot.apply]
  cases Value.calculate op slot operand <;> rfl

end Access

namespace Stacks

/-- The reply to a call from the list of its name, and the lists after it. -/
def serve (call : Call) (s : Stacks) : Except RunError Reply × Stacks :=
  ((call.access.onList call.name (s call.name)).1,
    Function.update s call.name (call.access.onList call.name (s call.name)).2)

/-- The replies to calls where all lists are empty at first. -/
def replies (calls : List Call) : List (Except RunError Reply) :=
  (serveAll serve calls fun _ => []).1

/-- The lists after calls where all are empty at first. -/
def after (calls : List Call) : Stacks := (serveAll serve calls fun _ => []).2

/-- Lists of which only that of one name has changed. -/
lemma eq_update {s t : Stacks} {name : String} (f : List Slot → List Slot)
    (h : ∀ n, t n = if name = n then f (s n) else s n) :
    t = Function.update s name (f (s name)) := by
  funext n
  rw [h, Function.update_apply]
  by_cases hn : n = name
  · simp [hn]
  · simp [hn, Ne.symm hn]

variable {first second : Call}

lemma fst_serve_of_ne (h : first.name ≠ second.name) (s : Stacks) :
    (serve second (serve first s).2).1 = (serve second s).1 := by
  simp only [serve, Function.update_of_ne h.symm]

lemma snd_serve_comm (h : first.name ≠ second.name) (s : Stacks) :
    (serve second (serve first s).2).2 = (serve first (serve second s).2).2 := by
  simp only [serve, Function.update_of_ne h, Function.update_of_ne h.symm]
  exact Function.update_comm h _ _ _

/-- Of all lists, the replies to the calls on a name depend on the list of that name only. -/
lemma replies_to_name {name : String} {s t : Stacks} (h : s name = t name) (calls : List Call) :
    ((calls.zip (serveAll serve calls s).1).filter fun served => served.1.name = name).map (·.2) =
      (serveAll serve (calls.filter fun call => call.name = name) t).1 := by
  induction calls generalizing s t with
  | nil => rfl
  | cons call calls ih =>
    by_cases hname : call.name = name
    · have hnext : (serve call s).2 name = (serve call t).2 name := by
        simp [serve, hname, h]
      have hreply : (serve call s).1 = (serve call t).1 := by
        simp [serve, hname, h]
      simp [serveAll, hname, hreply, ih hnext]
    · have hnext : (serve call s).2 name = t name :=
        (Function.update_of_ne (Ne.symm hname) _ _).trans h
      simp [serveAll, hname, ih hnext]

end Stacks

/-! ## One call -/

section OneCall

variable {σ : Type} [BindingStore σ] {s : σ} {name : String} {slot : Slot} {below : List Slot}
  {op : Operation} {operand : Option Value} {e : RunError}

lemma peek_of_cons (h : stack s name = slot :: below) : peek name s = .ok slot := by
  rw [peek_eq, h]

lemma peek_of_nil (h : stack s name = []) : peek name s = .error (.undefinedVariable name) := by
  rw [peek_eq, h]

lemma apply_of_cons (h : stack s name = slot :: below) :
    apply name op operand s =
      ((slot.apply op operand).1, replace name (slot.apply op operand).2 s) := by
  rw [apply_eq, peek_of_cons h]

lemma apply_of_nil (h : stack s name = []) :
    apply name op operand s = (.error (.undefinedVariable name), s) := by
  rw [apply_eq, peek_of_nil h]

lemma fst_serve (call : Call) (s : σ) :
    (serve call s).1 = (call.access.onList call.name (stack s call.name)).1 := by
  obtain ⟨name, access⟩ := call
  cases access with
  | push slot => rfl
  | isUnbound => simp only [serve, Access.onList, isUnbound_eq]
  | pop | peek =>
    cases h : stack s name with
    | nil => simp only [serve, Access.onList, fst_pop, peek_of_nil h, Except.map]
    | cons slot below => simp only [serve, Access.onList, fst_pop, peek_of_cons h, Except.map]
  | apply op operand =>
    cases h : stack s name with
    | nil => simp only [serve, Access.onList, apply_of_nil h, Except.map]
    | cons slot below => rw [serve, apply_of_cons h, Access.onList_apply_cons]

lemma stack_serve (call : Call) (s : σ) :
    stack (serve call s).2 =
      Function.update (stack s) call.name
        (call.access.onList call.name (stack s call.name)).2 := by
  obtain ⟨name, access⟩ := call
  cases access with
  | push slot => exact Stacks.eq_update (slot :: ·) fun n => stack_push name n slot s
  | isUnbound => exact (Function.update_eq_self name (stack s)).symm
  | pop =>
    rw [Access.snd_onList_pop]
    exact Stacks.eq_update List.tail fun n => stack_pop name n s
  | peek =>
    rw [Access.snd_onList_peek]
    exact (Function.update_eq_self name (stack s)).symm
  | apply op operand =>
    cases h : stack s name with
    | nil =>
      -- No list changes, but the empty one of the name is put back.
      have hkeep := (Function.update_eq_self name (stack s)).symm
      rw [h] at hkeep
      rw [serve, apply_of_nil h]
      exact hkeep
    | cons slot below =>
      have hreplace := Stacks.eq_update (List.modifyHead fun _ => (slot.apply op operand).2)
        fun n => stack_replace name n (slot.apply op operand).2 s
      rw [h] at hreplace
      rw [serve, apply_of_cons h, Access.onList_apply_cons]
      exact hreplace

/-- The reply to a call is that of the list of its name, and only that list changes. -/
theorem serve_stack (call : Call) (s : σ) :
    Stacks.serve call (stack s) = ((serve call s).1, stack (serve call s).2) := by
  rw [fst_serve, stack_serve]
  rfl

/-- A call that fails leaves the bindings as they are. -/
theorem snd_serve_of_error {call : Call} (h : (serve call s).1 = .error e) :
    (serve call s).2 = s := by
  obtain ⟨name, access⟩ := call
  cases access with
  | push slot | isUnbound => cases h
  | peek => rfl
  | pop =>
    cases hstack : stack s name with
    | nil => exact snd_pop_of_nil hstack
    | cons slot below => simp [fst_serve, hstack, Access.onList] at h
  | apply op operand =>
    rw [serve] at h ⊢
    cases hstack : stack s name with
    | nil => rw [apply_of_nil hstack]
    | cons slot below =>
      rw [apply_of_cons hstack] at h ⊢
      cases hslot : (slot.apply op operand).1 with
      | ok done => simp [hslot, Except.map] at h
      | error e' =>
        -- The slot is put back as it was, where it was.
        rw [Slot.snd_apply_of_error hslot, replace_head hstack]

end OneCall

/-! ## Any calls -/

section AnyCalls

variable {σ τ : Type} [BindingStore σ] [BindingStore τ]

lemma serveAll_stack (calls : List Call) (s : σ) :
    serveAll Stacks.serve calls (stack s) =
      ((serveAll serve calls s).1, stack (serveAll serve calls s).2) :=
  serveAll_view serve_stack calls s

/-- Two stores that give each name the same stack give the same replies, and still do so after
them, in whatever way each keeps its bindings. -/
theorem serveAll_congr {s : σ} {t : τ} (h : stack s = stack t) (calls : List Call) :
    (serveAll serve calls s).1 = (serveAll serve calls t).1 ∧
      stack (serveAll serve calls s).2 = stack (serveAll serve calls t).2 := by
  have hs := serveAll_stack calls s
  rw [h, serveAll_stack, Prod.mk.injEq] at hs
  exact ⟨hs.1.symm, hs.2.symm⟩

variable (σ)

lemma replies_eq (calls : List Call) : replies σ calls = Stacks.replies calls := by
  rw [Stacks.replies, ← stack_empty (σ := σ), serveAll_stack]
  rfl

lemma stack_after (calls : List Call) : stack (after σ calls) = Stacks.after calls := by
  rw [Stacks.after, ← stack_empty (σ := σ), serveAll_stack]
  rfl

lemma replies_append (calls later : List Call) :
    replies σ (calls ++ later) = replies σ calls ++ (serveAll serve later (after σ calls)).1 := by
  rw [replies, serveAll_append]
  rfl

variable {σ} {first second : Call}

lemma fst_serve_of_ne (h : first.name ≠ second.name) (s : σ) :
    (serve second (serve first s).2).1 = (serve second s).1 := by
  have hreply := Stacks.fst_serve_of_ne h (stack s)
  rwa [serve_stack first, serve_stack, serve_stack] at hreply

lemma stack_serve_comm (h : first.name ≠ second.name) (s : σ) :
    stack (serve second (serve first s).2).2 = stack (serve first (serve second s).2).2 := by
  have hstacks := Stacks.snd_serve_comm h (stack s)
  rwa [serve_stack first, serve_stack second, serve_stack, serve_stack] at hstacks

/-- Two neighbouring calls on different names may change places: they get the same replies as
before, and so do all calls after them. -/
theorem replies_exchange (h : first.name ≠ second.name) (calls later : List Call) :
    ∃ reply reply' rest,
      replies σ (calls ++ first :: second :: later) = replies σ calls ++ reply :: reply' :: rest ∧
      replies σ (calls ++ second :: first :: later) =
        replies σ calls ++ reply' :: reply :: rest := by
  -- The two orders may leave different stores, but the same stacks.
  have hlater := (serveAll_congr (stack_serve_comm h (after σ calls)) later).1
  refine ⟨(serve first (after σ calls)).1, (serve second (after σ calls)).1,
    (serveAll serve later (serve second (serve first (after σ calls)).2).2).1, ?_, ?_⟩
  · rw [replies_append, serveAll, serveAll, fst_serve_of_ne h]
  · rw [replies_append, serveAll, serveAll, fst_serve_of_ne h.symm, hlater]

/-- The replies to the calls on one name are the replies to these calls alone. -/
theorem replies_filter (name : String) (calls : List Call) :
    ((calls.zip (replies σ calls)).filter fun served => served.1.name = name).map (·.2) =
      replies σ (calls.filter fun call => call.name = name) := by
  rw [replies_eq, replies_eq]
  exact Stacks.replies_to_name rfl calls

end AnyCalls

end BindingStore

end PageScript
