import PageScript.Proofs.Document.WellFormed
import PageScript.Proofs.Run.StackDepth
/-!
# Undefined variables can be seen beforehand

A variable is defined in the bodies of the loops over it, and nowhere else; and the values in the
opening tag of a loop stand outside its body.  So whether a run can meet a variable without
a value can be read off the document, whatever the host does.

The invariant is that each enclosing loop has its variable in scope.  A run fails for want of a
value only where an element asks for one: what a loop asks for itself, to compare it, to step it
and to take it back, is the variable that it has bound.
-/

namespace PageScript

/-! ## Where variables occur -/

/-- The variables of an element: its name, if it is one. -/
def Element.names : Element → List String
  | .variable name => [name]
  | .number _ | .string _ | .function _ | .operator _ => []

lemma Element.mem_names {name : String} {e : Element} :
    name ∈ e.names ↔ e = .variable name := by
  cases e with
  | «variable» n => simp [names, eq_comm]
  | number | string | function | operator => simp [names]

/-- The variables among some elements, each with the loops around them. -/
def Element.occurrences (loops : List String) (elements : List Element) :
    List (String × List String) :=
  (elements.flatMap names).map fun name => (name, loops)

lemma Element.mem_occurrences {name : String} {loops inner : List String}
    {elements : List Element} :
    (name, inner) ∈ occurrences loops elements ↔ .variable name ∈ elements ∧ inner = loops := by
  simp only [occurrences, List.mem_map, List.mem_flatMap, mem_names, Prod.mk.injEq]
  constructor
  · rintro ⟨n, ⟨e, he, rfl⟩, rfl, rfl⟩
    exact ⟨he, rfl⟩
  · rintro ⟨he, rfl⟩
    exact ⟨name, ⟨_, he, rfl⟩, rfl, rfl⟩

mutual

/-- The variables that occur in a node, each with the variables of the loops whose bodies it stands
in, where the node itself stands in those of `loops`. -/
def Node.occurrences (loops : List String) : Node → List (String × List String)
  | .text _ => []
  | .echo elements => Element.occurrences loops elements
  | .loop header body =>
    -- The values in the opening tag do not stand in the body.
    Element.occurrences loops header.operands ++ Document.occurrences (header.name :: loops) body

/-- The variables that occur in nodes, each with the variables of the loops whose bodies it stands
in, where the nodes themselves stand in those of `loops`. -/
def Document.occurrences (loops : List String) : List Node → List (String × List String)
  | [] => []
  | node :: rest => node.occurrences loops ++ Document.occurrences loops rest

end

mutual

/-- What stands in a node stands in all that the node stands in. -/
theorem Node.subset_of_mem_occurrences {loops inner : List String} {name : String} :
    (node : Node) → (name, inner) ∈ node.occurrences loops → loops ⊆ inner
  | .text _, h => by simp [Node.occurrences] at h
  | .echo _, h => (Element.mem_occurrences.1 h).2 ▸ List.Subset.refl _
  | .loop header body, h => by
    rw [Node.occurrences, List.mem_append] at h
    obtain hoperand | hbody := h
    · exact (Element.mem_occurrences.1 hoperand).2 ▸ List.Subset.refl _
    · have hinner : header.name :: loops ⊆ inner := Document.subset_of_mem_occurrences body hbody
      exact List.Subset.trans (List.subset_cons_self _ _) hinner

theorem Document.subset_of_mem_occurrences {loops inner : List String} {name : String} :
    (nodes : List Node) → (name, inner) ∈ Document.occurrences loops nodes → loops ⊆ inner
  | [], h => by simp [Document.occurrences] at h
  | node :: rest, h => by
    rw [Document.occurrences, List.mem_append] at h
    obtain hnode | hrest := h
    · exact Node.subset_of_mem_occurrences node hnode
    · exact Document.subset_of_mem_occurrences rest hrest

end

/-! ## Reasons to fail -/

/-- `FailsOnly p m` holds if all that `m` may fail for satisfies `p`. -/
def FailsOnly {ε σ α : Type} (p : ε → Prop) (m : EStateM ε σ α) : Prop :=
  ∀ s e t, m s = .error e t → p e

namespace FailsOnly

variable {ε σ α β : Type} {p : ε → Prop} {m : EStateM ε σ α}

lemma pure (a : α) : FailsOnly p (Pure.pure a : EStateM ε σ α) := by
  intro s e t h
  cases h

lemma throw {e : ε} (h : p e) : FailsOnly p (MonadExcept.throw e : EStateM ε σ α) := by
  rintro s _ t ⟨⟩
  exact h

lemma bind {k : α → EStateM ε σ β} (hm : FailsOnly p m) (hk : ∀ a, FailsOnly p (k a)) :
    FailsOnly p (m >>= k) := by
  intro s e t h
  simp only [Bind.bind, EStateM.bind] at h
  cases hrun : m s with
  | ok a s' =>
    rw [hrun] at h
    exact hk a s' e t h
  | error e' s' =>
    rw [hrun] at h
    obtain ⟨rfl, rfl⟩ := EStateM.Result.error.inj h
    exact hm s _ _ hrun

lemma forM {as : List α} {k : α → EStateM ε σ Unit} (h : ∀ a ∈ as, FailsOnly p (k a)) :
    FailsOnly p (as.forM k) := by
  induction as with
  | nil => exact pure ()
  | cons a as ih =>
    simp only [List.forM_eq_forM, List.forM_cons] at ih ⊢
    exact bind (h a List.mem_cons_self) fun _ => ih fun a ha => h a (List.mem_cons_of_mem _ ha)

lemma mono {q : ε → Prop} (h : FailsOnly p m) (himp : ∀ e, p e → q e) : FailsOnly q m :=
  fun s e t hrun => himp e (h s e t hrun)

end FailsOnly

/-- Whether the variable that a failure is for want of, if there is one, satisfies `p`. -/
def RunError.Lacks (p : String → Prop) : RunError → Prop
  | undefinedVariable name => p name
  | notANumber _ | divisionByZero | unsupportedOperator _ | unknownFunction _ | stackUnderflow _
  | invalidPattern _ | output _ | host _ => True

/-- Whether the variable that an early end is for want of, if there is one, satisfies `p`. -/
def Stop.Lacks (p : String → Prop) : Stop → Prop
  | .failed e => e.Lacks p
  | .unfinished => True

section Lacks

variable {p : String → Prop} {e : RunError}

lemma RunError.IsArithmetic.lacks (h : e.IsArithmetic) : e.Lacks p := by
  cases h <;> trivial

lemma RunError.IsOfFunction.lacks (h : e.IsOfFunction) : e.Lacks p := by
  cases h <;> trivial

lemma Value.order_eq_error {left right : Option Value} (h : order left right = .error e) :
    ∃ text, e = .notANumber text := by
  rcases operands_cases left right with ⟨s, hs⟩ | ⟨a, s, ha, hs⟩ | ⟨a, b, ha, hb⟩
  · rw [order_of_left hs] at h
    exact ⟨s, (Except.error.inj h).symm⟩
  · rw [order_of_right ha hs] at h
    exact ⟨s, (Except.error.inj h).symm⟩
  · rw [order_of_numbers ha hb] at h
    cases h

end Lacks

/-! ## Runs in scope -/

namespace Scope

variable {σ : Type} {scope : Scope} {p : String → Prop}

lemma value_eq_error {name : String} {e : RunError} (h : scope.value name = .error e) :
    scope name = none ∧ e = .undefinedVariable name := by
  unfold value at h
  cases hname : scope name with
  | some v => simp [hname] at h
  | none =>
    rw [hname] at h
    exact ⟨rfl, (Except.error.inj h).symm⟩

lemma operandValue_eq_error {element : Element} {e : RunError}
    (h : scope.operandValue element = .error e) :
    ∃ name, element = .variable name ∧ scope name = none ∧ e = .undefinedVariable name := by
  cases element with
  | «variable» name => exact ⟨name, rfl, value_eq_error h⟩
  | number | string | function | operator => cases h

lemma failsOnly_ofExcept {α : Type} {result : Except RunError α}
    (h : ∀ e, result = .error e → e.Lacks p) :
    FailsOnly (Stop.Lacks p) (ofExcept result : EStateM Stop σ α) := by
  cases result with
  | ok a => exact .pure a
  | error e => exact .throw (h e rfl)

lemma failsOnly_operandValue {element : Element}
    (h : ∀ name, element = .variable name → scope name = none → p name) :
    FailsOnly (Stop.Lacks p) (ofExcept (scope.operandValue element) : EStateM Stop σ Value) := by
  refine failsOnly_ofExcept fun e he => ?_
  obtain ⟨name, helement, hname, rfl⟩ := operandValue_eq_error he
  exact h name helement hname

/-- The rounds of a loop lack what their bodies lack.  The value that they compare and step is at
hand. -/
lemma failsOnly_rounds {name : String} {stop step : Value} {body : Scope → EStateM Stop σ Unit}
    (hbody : ∀ current, FailsOnly (Stop.Lacks p) (body (scope.extend name current)))
    (limit : Nat) (current : Value) :
    FailsOnly (Stop.Lacks p) (scope.rounds name stop step body limit current) := by
  induction limit generalizing current with
  | zero => exact .throw trivial
  | succ limit ih =>
    unfold rounds
    refine .bind (failsOnly_ofExcept fun e he => ?_) fun order => ?_
    · obtain ⟨text, rfl⟩ := Value.order_eq_error he
      trivial
    split
    · exact .pure ()
    refine .bind (hbody current) fun _ => .bind (failsOnly_ofExcept fun e he => ?_) ih
    exact (Value.calculate_eq_error he).lacks

lemma failsOnly_loop {limit : Nat} {header : LoopHeader} {body : Scope → EStateM Stop σ Unit}
    (hoperands : ∀ name, .variable name ∈ header.operands → scope name = none → p name)
    (hbody : ∀ current, FailsOnly (Stop.Lacks p) (body (scope.extend header.name current))) :
    FailsOnly (Stop.Lacks p) (scope.loop limit header body) := by
  have hvalue {element : Element} (hmem : element ∈ header.operands) :
      FailsOnly (Stop.Lacks p) (ofExcept (scope.operandValue element) : EStateM Stop σ Value) := by
    refine failsOnly_operandValue fun name helement hname => hoperands name ?_ hname
    rwa [← helement]
  unfold loop
  refine .bind (hvalue (by simp [LoopHeader.operands])) fun start => ?_
  refine .bind (hvalue (by simp [LoopHeader.operands])) fun stop => ?_
  refine .bind ?_ fun step => failsOnly_rounds hbody limit start
  cases hstep : header.step with
  | none => exact .pure _
  | some element => exact hvalue (by simp [LoopHeader.operands, hstep])

variable [Host σ]

lemma failsOnly_write (text : String) :
    FailsOnly (Stop.Lacks p) (write text : EStateM Stop σ Unit) := by
  intro host stop host' h
  unfold write at h
  split at h
  · cases h
  · obtain ⟨rfl, -⟩ := EStateM.Result.error.inj h
    trivial

/-- A function of echo tags lacks no variable. -/
lemma failsOnly_run (f : Builtin) :
    FailsOnly (RunError.Lacks p) (f.run : EStateM RunError (Desk σ) Unit) := by
  intro d e d' h
  have hends := Builtin.takes (P := fun _ : σ => True) ⟨by simp, by simp, by simp⟩ f d trivial
  rw [h] at hends
  cases hends with
  | short => trivial
  | failed _ because => exact because.lacks

lemma failsOnly_evaluate {element : Element}
    (h : ∀ name, element = .variable name → scope name = none → p name) :
    FailsOnly (RunError.Lacks p)
      (scope.evaluate element : EStateM RunError (Desk σ) Unit) := by
  have hpush (v : Value) : FailsOnly (RunError.Lacks p) (Desk.push v : EStateM _ (Desk σ) _) := by
    rintro ⟨values, host⟩ e d ⟨⟩
  have hpop : FailsOnly (RunError.Lacks p) (Desk.pop element : EStateM _ (Desk σ) _) := by
    rintro ⟨_ | ⟨v, values⟩, host⟩ e d ⟨⟩
    trivial
  cases element with
  | number | string => exact hpush _
  | «variable» name =>
    refine .bind ?_ hpush
    cases hvalue : scope.value name with
    | ok v => exact .pure v
    | error e =>
      obtain ⟨hname, rfl⟩ := value_eq_error hvalue
      exact .throw (h name rfl hname)
  | operator c =>
    refine .bind hpop fun right => .bind hpop fun left => ?_
    cases Operation.ofChar? c with
    | none => exact .throw trivial
    | some op =>
      refine .bind ?_ hpush
      cases hvalue : Value.calculate op (some left) (some right) with
      | ok v => exact .pure v
      | error e => exact .throw (Value.calculate_eq_error hvalue).lacks
  | function name =>
    simp only [evaluate, Builtin.call]
    cases Builtin.ofName? name with
    | some f => exact failsOnly_run f
    | none => exact .throw trivial

lemma failsOnly_echo {elements : List Element}
    (h : ∀ name, .variable name ∈ elements → scope name = none → p name) :
    FailsOnly (Stop.Lacks p) (scope.echo elements : EStateM Stop σ Unit) := by
  have hall : FailsOnly (RunError.Lacks p)
      (elements.forM scope.evaluate : EStateM RunError (Desk σ) Unit) := by
    refine .forM fun element hmem => failsOnly_evaluate fun name helement hname => h name ?_ hname
    rwa [← helement]
  refine .bind ?_ fun values => .forM fun v _ => failsOnly_write v.text
  intro host stop host' hrun
  unfold compute at hrun
  cases hdesk : elements.forM scope.evaluate (⟨[], host⟩ : Desk σ) with
  | ok _ desk => simp [hdesk] at hrun
  | error e desk =>
    rw [hdesk] at hrun
    obtain ⟨rfl, -⟩ := EStateM.Result.error.inj hrun
    exact hall _ e desk hdesk

end Scope

/-! ## Documents -/

/-- Whether some occurrence of a variable stands outside the body of every loop over it. -/
def IsExposed (occurrences : List (String × List String)) (name : String) : Prop :=
  ∃ loops, (name, loops) ∈ occurrences ∧ name ∉ loops

section Exposed

variable {first rest : List (String × List String)} {name : String}

lemma IsExposed.append_left (h : IsExposed first name) : IsExposed (first ++ rest) name :=
  h.imp fun _ hloops => hloops.imp_left (List.mem_append_left _)

lemma IsExposed.append_right (h : IsExposed rest name) : IsExposed (first ++ rest) name :=
  h.imp fun _ hloops => hloops.imp_left (List.mem_append_right _)

end Exposed

lemma FailsOnly.mono_lacks {σ α : Type} {p q : String → Prop} {m : EStateM Stop σ α}
    (h : FailsOnly (Stop.Lacks p) m) (himp : ∀ name, p name → q name) :
    FailsOnly (Stop.Lacks q) m := by
  refine h.mono fun stop hstop => ?_
  cases stop with
  | unfinished => trivial
  | failed e =>
    cases e with
    | undefinedVariable name => exact himp name hstop
    | _ => trivial

/-- Whether every name has a value in the scope. -/
def Scope.Covers (scope : Scope) (names : List String) : Prop := ∀ name ∈ names, scope name ≠ none

lemma Scope.Covers.extend {scope : Scope} {names : List String} (h : scope.Covers names)
    (name : String) (v : Value) : (scope.extend name v).Covers (name :: names) := by
  intro n hn
  unfold Scope.extend
  by_cases hname : n = name
  · simp [hname]
  · rw [if_neg hname]
    exact h n ((List.mem_cons.1 hn).resolve_left hname)

variable {σ : Type} [Host σ]

mutual

theorem Node.failsOnly (limit : Nat) {scope : Scope} {loops : List String}
    (h : scope.Covers loops) : (node : Node) →
    FailsOnly (Stop.Lacks (IsExposed (node.occurrences loops)))
      (node.runIn limit scope : EStateM Stop σ Unit)
  | .text s => Scope.failsOnly_write s
  | .echo elements => Scope.failsOnly_echo fun name hmem hname =>
      ⟨loops, Element.mem_occurrences.2 ⟨hmem, rfl⟩, fun hloops => h name hloops hname⟩
  | .loop header body => by
    refine Scope.failsOnly_loop (fun name hmem hname => .append_left ?_) fun current => ?_
    · exact ⟨loops, Element.mem_occurrences.2 ⟨hmem, rfl⟩, fun hloops => h name hloops hname⟩
    · exact (Document.failsOnly limit (h.extend header.name current) body).mono_lacks
        fun name => .append_right

/-- Where each loop around the nodes has its variable in scope, a run of the nodes lacks only what
occurs outside the body of every loop over it. -/
theorem Document.failsOnly (limit : Nat) {scope : Scope} {loops : List String}
    (h : scope.Covers loops) : (nodes : List Node) →
    FailsOnly (Stop.Lacks (IsExposed (Document.occurrences loops nodes)))
      (Document.runIn limit scope nodes : EStateM Stop σ Unit)
  | [] => .pure ()
  | node :: rest => by
    refine .bind ((Node.failsOnly limit h node).mono_lacks fun name => .append_left) fun _ => ?_
    exact (Document.failsOnly limit h rest).mono_lacks fun name => .append_right

end

namespace Bindings

/-- What is bound is in scope. -/
lemma covers_scope (b : Bindings) : b.scope.Covers (b.map Prod.fst) := by
  intro name hname
  obtain ⟨entry, hentry, rfl⟩ := List.mem_map.1 hname
  unfold scope
  rw [ne_eq, Option.map_eq_none_iff, List.lookup_eq_none_iff]
  exact fun hnone => absurd (hnone entry hentry) (by simp)

end Bindings

/-- A run on stacks fails as the run in the scope of its innermost bindings does. -/
lemma Document.runIn_eq_error {limit : Nat} {nodes : List Node} {b : Bindings} {host : σ}
    {stop : Stop} {r : Run σ} (h : Document.run limit nodes ⟨b, host⟩ = .error stop r) :
    Document.runIn limit b.scope nodes host = .error stop r.host := by
  have hsimulates := Document.simulates limit b nodes host
  cases hscoped : Document.runIn limit b.scope nodes host with
  | ok _ host' =>
    rw [hscoped] at hsimulates
    obtain ⟨_, -, hrun⟩ := hsimulates
    cases h.symm.trans hrun
  | error stop' host' =>
    rw [hscoped] at hsimulates
    obtain ⟨b', hrun⟩ := hsimulates
    obtain ⟨rfl, rfl⟩ := EStateM.Result.error.inj (h.symm.trans hrun)
    rfl

/-- A document that fails for want of a variable has it outside the body of every loop over it; so
one that has all of its variables in the bodies of loops over them never fails for want of one.  And
whatever is bound, a loop fails for want of its own variable only where one of the values in its
opening tag is that variable, which nothing around the loop has bound: never where it compares its
variable, steps it or takes it back. -/
theorem Document.execute_undefinedVariable (limit : Nat) (document : Document) :
    (∀ (host host' : σ) name,
      document.execute limit host = .error (.failed (.undefinedVariable name)) host' →
        IsExposed (Document.occurrences [] document) name) ∧
    ((∀ name loops, (name, loops) ∈ Document.occurrences [] document → name ∈ loops) →
      ∀ (host host' : σ) name,
        document.execute limit host ≠ .error (.failed (.undefinedVariable name)) host') ∧
    ∀ header body b (host : σ) r,
      Document.run limit [.loop header body] ⟨b, host⟩ =
          .error (.failed (.undefinedVariable header.name)) r →
        .variable header.name ∈ header.operands ∧ b.isUnbound header.name := by
  have hexecute (host host' : σ) (name : String)
      (h : document.execute limit host = .error (.failed (.undefinedVariable name)) host') :
      IsExposed (Document.occurrences [] document) name := by
    rw [execute_eq_runIn] at h
    exact Document.failsOnly limit (Bindings.covers_scope []) document host _ host' h
  refine ⟨hexecute, fun hall host host' name h => ?_, fun header body b host r h => ?_⟩
  · obtain ⟨loops, hmem, hnot⟩ := hexecute host host' name h
    exact hnot (hall name loops hmem)
  · obtain ⟨inner, hmem, hnot⟩ := Document.failsOnly limit b.covers_scope [.loop header body]
      host _ r.host (Document.runIn_eq_error h)
    simp only [occurrences, Node.occurrences, List.append_nil, List.mem_append] at hmem
    obtain hoperand | hbody := hmem
    · obtain ⟨hvariable, rfl⟩ := Element.mem_occurrences.1 hoperand
      refine ⟨hvariable, ?_⟩
      rw [Bindings.isUnbound, Option.isNone_iff_eq_none, List.lookup_eq_none_iff]
      intro entry hentry
      rw [bne_iff_ne]
      intro hname
      exact hnot (List.mem_map.2 ⟨entry, hentry, hname.symm⟩)
    · -- In the body of the loop its variable stands in a loop over it.
      exact absurd (Document.subset_of_mem_occurrences body hbody List.mem_cons_self) hnot

/-- The limit of a loop stands outside of it, and what the loop writes stands inside. -/
example :
    Document.occurrences []
        [.loop ⟨"i", .number (.int 1), .variable "i", none⟩ [.echo [.variable "i"]]] =
      [("i", []), ("i", ["i"])] := by
  decide

end PageScript
