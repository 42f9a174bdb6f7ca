import PageScript.Bindings
import PageScript.NamedStacks
import PageScript.Proofs.Run.BindingStore
/-!
# Each name has a stack of its own

While a page runs, its bindings stand in one list, in the order in which they were made.  Named
stacks keep those of each name in an entry of their own, which stays when it runs empty.  Both are
stores of bindings, and from the replies they cannot be told apart: each name has a stack of its
own, and a name whose bindings have all been removed is as one that never had any, although in one
way of keeping them it has an entry and in the other it has nothing.
-/

namespace PageScript

/-! ## One list -/

namespace Bindings

variable {b : Bindings} {name : String} {slot : Slot} {below : List Slot}

lemma peek_eq (name : String) (b : Bindings) : b.peek name =
    match b.stack name with
    | slot :: _ => .ok slot
    | [] => .error (.undefinedVariable name) := by
  rw [peek, lookup_eq_head?]
  cases b.stack name <;> rfl

lemma snd_pop_of_stack_nil (h : b.stack name = []) : (b.pop name).2 = b := by
  have hlookup : b.lookup name = none := by
    rw [lookup_eq_head?, h]
    rfl
  refine List.eraseP_of_forall_not fun entry hmem hname => ?_
  have hne := List.lookup_eq_none_iff.1 hlookup entry hmem
  rw [beq_iff_eq] at hname
  simp [hname] at hne

lemma replace_of_stack_cons (h : b.stack name = slot :: below) : b.replace name slot = b := by
  induction b with
  | nil => rfl
  | cons entry rest ih =>
    obtain ⟨other, held⟩ := entry
    rw [stack_cons] at h
    by_cases hname : other = name
    · rw [if_pos hname, List.cons.injEq] at h
      rw [replace, if_pos hname, h.1, hname]
    · rw [if_neg hname] at h
      rw [replace, if_neg hname, ih h]

end Bindings

instance : BindingStore Bindings where
  empty := []
  push := Bindings.push
  pop := Bindings.pop
  peek := Bindings.peek
  replace := Bindings.replace
  apply := Bindings.apply
  isUnbound := Bindings.isUnbound
  stack := Bindings.stack
  stack_empty := rfl
  peek_eq := Bindings.peek_eq
  isUnbound_eq := Bindings.isUnbound_eq
  fst_pop _ _ := rfl
  apply_eq name op operand b := by
    rw [Bindings.apply]
    cases b.peek name <;> rfl
  stack_push := Bindings.stack_push
  stack_pop := Bindings.stack_pop
  stack_replace := Bindings.stack_replace
  snd_pop_of_nil := Bindings.snd_pop_of_stack_nil
  replace_head := Bindings.replace_of_stack_cons

/-! ## Entries -/

namespace NamedStacks

variable {s : NamedStacks} {name : String} {slot : Slot} {below : List Slot}

lemma peek_eq (name : String) (s : NamedStacks) : s.peek name =
    match s.stack name with
    | slot :: _ => .ok slot
    | [] => .error (.undefinedVariable name) := by
  rw [peek, innermost?_eq_head?]
  cases s.stack name <;> rfl

lemma modify_eq_self {f : Array Slot → Array Slot}
    (h : ∀ entry, s.entries[name]? = some entry → f entry = entry) :
    s.entries.modify name f = s.entries := by
  refine Std.ExtTreeMap.ext_getElem? fun n => ?_
  rw [Std.ExtTreeMap.getElem?_modify]
  by_cases hn : name = n
  · subst hn
    cases hentry : s.entries[name]? with
    | none => simp
    | some entry => simp [h entry hentry]
  · simp [hn]

lemma snd_pop_of_stack_nil (h : s.stack name = []) : (s.pop name).2 = s := by
  rw [pop, modify_eq_self]
  intro entry hentry
  -- The entry is empty, so there is nothing to remove from it.
  rw [stack_eq, hentry, Option.getD_some, List.reverse_eq_nil_iff, Array.toList_eq_nil_iff] at h
  rw [h]
  rfl

lemma replace_of_stack_cons (h : s.stack name = slot :: below) : s.replace name slot = s := by
  rw [replace, modify_eq_self]
  intro entry hentry
  obtain ⟨slots⟩ := entry
  obtain rfl : slots = below.reverse ++ [slot] := by
    rwa [stack_eq, hentry, Option.getD_some, List.reverse_eq_cons_iff] at h
  simp

end NamedStacks

instance : BindingStore NamedStacks where
  empty := NamedStacks.empty
  push := NamedStacks.push
  pop := NamedStacks.pop
  peek := NamedStacks.peek
  replace := NamedStacks.replace
  apply := NamedStacks.apply
  isUnbound := NamedStacks.isUnbound
  stack := NamedStacks.stack
  stack_empty := NamedStacks.stack_empty
  peek_eq := NamedStacks.peek_eq
  isUnbound_eq := NamedStacks.isUnbound_eq
  fst_pop _ _ := rfl
  apply_eq name op operand s := by
    rw [NamedStacks.apply]
    cases s.peek name <;> rfl
  stack_push := NamedStacks.stack_push
  stack_pop := NamedStacks.stack_pop
  stack_replace := NamedStacks.stack_replace
  snd_pop_of_nil := NamedStacks.snd_pop_of_stack_nil
  replace_head := NamedStacks.replace_of_stack_cons

/-! ## Replies -/

namespace NamedStacks

open BindingStore

/-- Entries for bindings that stand in one list. -/
def ofBindings : Bindings → NamedStacks
  | [] => empty
  | (name, slot) :: rest => (ofBindings rest).push name slot

lemma stack_ofBindings (b : Bindings) : (ofBindings b).stack = b.stack := by
  induction b with
  | nil => exact stack_empty
  | cons entry rest ih =>
    funext n
    rw [ofBindings, stack_push, ih, Bindings.stack_cons]

/-- Whatever bindings a page has, named stacks that hold the same give the same replies from then on
and go on to hold the same. -/
theorem serveAll_ofBindings (b : Bindings) (calls : List Call) :
    (serveAll serve calls (ofBindings b)).1 = (serveAll serve calls b).1 ∧
      (serveAll serve calls (ofBindings b)).2.stack = (serveAll serve calls b).2.stack :=
  serveAll_congr (stack_ofBindings b) calls

lemma stack_pop_push (name : String) (slot : Slot) (s : NamedStacks) :
    ((s.push name slot).pop name).2.stack = s.stack := by
  funext n
  rw [stack_pop, stack_push]
  split <;> rfl

/-- A name that is bound and unbound again has an entry from then on, also if it had none before;
but from then on all replies are those that there would have been otherwise. -/
theorem replies_of_pop_push (name : String) (slot : Slot) (s : NamedStacks) (calls : List Call) :
    ((s.push name slot).pop name).2.entries[name]? = some (s.entries.getD name #[]) ∧
      (serveAll serve calls ((s.push name slot).pop name).2).1 = (serveAll serve calls s).1 :=
  ⟨by simp [push, pop], (serveAll_congr (stack_pop_push name slot s) calls).1⟩

/-- Neither a name that is unbound again is bound, nor one that never was. -/
example : replies NamedStacks [⟨"i", .push none⟩, ⟨"i", .pop⟩, ⟨"i", .peek⟩, ⟨"j", .peek⟩,
      ⟨"i", .isUnbound⟩, ⟨"j", .isUnbound⟩] =
    [.ok .done, .ok (.slot none), .error (.undefinedVariable "i"), .error (.undefinedVariable "j"),
      .ok (.answer true), .ok (.answer true)] := by decide

/-- Whatever is called for, with nothing bound at first, the replies are those of a plain list for
each name, and these hold in the end what is bound to the names.  A call that fails changes nothing,
not even the entries.  Two neighbouring calls on different names may change places: they get the
same replies as before, and so do all calls after them. -/
theorem serves_as_separate_stacks (calls : List Call) :
    replies NamedStacks calls = Stacks.replies calls ∧
      (∀ name, (after NamedStacks calls).stack name = Stacks.after calls name) ∧
      (∀ call e, (serve call (after NamedStacks calls)).1 = .error e →
        (serve call (after NamedStacks calls)).2 = after NamedStacks calls) ∧
      ∀ first second later, first.name ≠ second.name →
        ∃ reply reply' rest,
          replies NamedStacks (calls ++ first :: second :: later) =
            replies NamedStacks calls ++ reply :: reply' :: rest ∧
          replies NamedStacks (calls ++ second :: first :: later) =
            replies NamedStacks calls ++ reply' :: reply :: rest :=
  ⟨replies_eq NamedStacks calls, congrFun (stack_after NamedStacks calls),
    fun _ _ hfails => snd_serve_of_error hfails,
    fun _ _ later hne => replies_exchange hne calls later⟩

/-- Calls that bind `i` twice, once to an empty slot, and in between `j` to a string that is no
number, and `k`, which is then unbound again. -/
def interleavedCalls : List Call :=
  [⟨"i", .push (some (.int 1))⟩, ⟨"j", .push (some (.string "x"))⟩, ⟨"k", .push none⟩,
    ⟨"i", .push none⟩, ⟨"k", .pop⟩]

theorem serves_as_separate_stacks_interleavedCalls :
    (serve ⟨"j", .apply .add none⟩ (after NamedStacks interleavedCalls)).1 =
        .error (.notANumber "x") ∧
      (serve ⟨"j", .apply .add none⟩ (after NamedStacks interleavedCalls)).2 =
        after NamedStacks interleavedCalls ∧
      ∃ reply reply' rest,
        replies NamedStacks (interleavedCalls ++
            [⟨"i", .apply .add (some (.int 2))⟩, ⟨"j", .pop⟩, ⟨"j", .pop⟩]) =
          replies NamedStacks interleavedCalls ++ reply :: reply' :: rest ∧
        replies NamedStacks (interleavedCalls ++
            [⟨"j", .pop⟩, ⟨"i", .apply .add (some (.int 2))⟩, ⟨"j", .pop⟩]) =
          replies NamedStacks interleavedCalls ++ reply' :: reply :: rest := by
  have hfails : (serve ⟨"j", .apply .add none⟩ (after NamedStacks interleavedCalls)).1 =
      .error (.notANumber "x") := by decide
  obtain ⟨-, -, hkeeps, hexchange⟩ := serves_as_separate_stacks interleavedCalls
  exact ⟨hfails, hkeeps _ _ hfails, hexchange ⟨"i", .apply .add (some (.int 2))⟩ ⟨"j", .pop⟩
    [⟨"j", .pop⟩] (by decide)⟩

end NamedStacks

end PageScript
