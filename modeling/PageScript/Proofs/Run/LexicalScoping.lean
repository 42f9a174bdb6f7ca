import PageScript.Proofs.Run.Scope
/-!
# Loops scope lexically

A run keeps its variables on named stacks: a loop pushes its variable, steps it in place between
rounds, and pops it at the end.  It does what a run in scopes does, which has no stacks.

The invariant is that a node leaves the bindings as it found them.  So what a loop steps after a
round is the variable that it pushed itself, whatever the body bound in between, and what it pops
at the end is that one too.
-/

namespace PageScript

/-- The innermost bindings, which are all that a run sees of the stacks. -/
def Bindings.scope (b : Bindings) : Scope := fun name => (b.lookup name).map Slot.value

namespace Bindings

lemma scope_cons (name : String) (slot : Slot) (b : Bindings) :
    scope ((name, slot) :: b) = b.scope.extend name slot.value := by
  funext n
  unfold scope Scope.extend
  rw [List.lookup_cons]
  by_cases h : n = name
  · simp [h]
  · rw [if_neg h, beq_false_of_ne h]

lemma value_eq (b : Bindings) (name : String) : b.value name = b.scope.value name := by
  unfold value peek Scope.value scope
  cases b.lookup name <;> rfl

lemma peek_cons (name : String) (slot : Slot) (b : Bindings) :
    peek name ((name, slot) :: b) = .ok slot := by
  simp [peek]

lemma apply_cons (name : String) (op : Operation) (operand : Option Value) (slot : Slot)
    (b : Bindings) :
    apply name op operand ((name, slot) :: b) =
      ((slot.apply op operand).1, (name, (slot.apply op operand).2) :: b) := by
  simp [apply, peek_cons, replace]

lemma pop_cons (name : String) (slot : Slot) (b : Bindings) :
    pop name ((name, slot) :: b) = (.ok slot, b) := by
  simp [pop, peek]

end Bindings

lemma Element.operandValue_eq (b : Bindings) (e : Element) :
    e.operandValue b = b.scope.operandValue e := by
  cases e with
  | «variable» name => exact b.value_eq name
  | number | string | function | operator => rfl

variable {σ : Type}

/-! ## Simulation -/

/-- `Simulates b post m f` holds if `m`, begun with the bindings `b`, does the same as `f`, which has
no bindings, and leaves bindings that satisfy `post` unless it stops early. -/
def Simulates {α : Type} (b : Bindings) (post : Bindings → Prop) (m : EStateM Stop (Run σ) α)
    (f : EStateM Stop σ α) : Prop :=
  ∀ host, match f host with
    | .ok a host' => ∃ b', post b' ∧ m ⟨b, host⟩ = .ok a ⟨b', host'⟩
    | .error stop host' => ∃ b', m ⟨b, host⟩ = .error stop ⟨b', host'⟩

namespace Simulates

variable {α β : Type} {b : Bindings} {post mid : Bindings → Prop} {m : EStateM Stop (Run σ) α}
  {f : EStateM Stop σ α}

lemma pure (a : α) (h : post b) :
    Simulates b post (Pure.pure a : EStateM Stop (Run σ) α) (Pure.pure a) :=
  fun _ => ⟨b, h, rfl⟩

lemma throw (stop : Stop) :
    Simulates b post (MonadExcept.throw stop : EStateM Stop (Run σ) α) (MonadExcept.throw stop) :=
  fun _ => ⟨b, rfl⟩

/-- One computation after another. -/
lemma bind {k : α → EStateM Stop (Run σ) β} {g : α → EStateM Stop σ β}
    (hm : Simulates b mid m f) (hk : ∀ b' a, mid b' → Simulates b' post (k a) (g a)) :
    Simulates b post (m >>= k) (f >>= g) := by
  intro host
  have hhost := hm host
  simp only [Bind.bind, EStateM.bind]
  cases hf : f host with
  | ok a host' =>
    rw [hf] at hhost
    obtain ⟨b', hb', hrun⟩ := hhost
    rw [hrun]
    exact hk b' a hb' host'
  | error stop host' =>
    rw [hf] at hhost
    obtain ⟨b', hrun⟩ := hhost
    exact ⟨b', by rw [hrun]⟩

/-- A computation for each of some values, if each leaves the bindings as it found them. -/
lemma forM {as : List α} {k : α → EStateM Stop (Run σ) Unit} {g : α → EStateM Stop σ Unit}
    (h : ∀ a, Simulates b (· = b) (k a) (g a)) : Simulates b (· = b) (as.forM k) (as.forM g) := by
  induction as with
  | nil => exact pure () rfl
  | cons a as ih =>
    simp only [List.forM_eq_forM, List.forM_cons]
    refine bind (h a) ?_
    rintro _ _ rfl
    exact ih

/-- What the bindings decide may be decided beforehand. -/
lemma readBindings {h : Bindings → Except RunError α} {result : Except RunError α}
    (hresult : h b = result) :
    Simulates b (· = b) (Run.readBindings h) (Scope.ofExcept result : EStateM Stop σ α) := by
  intro host
  cases result with
  | ok a => exact ⟨b, rfl, by simp [Run.readBindings, hresult]⟩
  | error e => exact ⟨b, by simp [Run.readBindings, hresult]⟩

/-- A change of the bindings is nothing where there are none. -/
lemma changeBindings {h : Bindings → Except RunError α × Bindings} {b' : Bindings} {a : α}
    {k : α → EStateM Stop (Run σ) β} {g : EStateM Stop σ β} (hchange : h b = (.ok a, b'))
    (hk : Simulates b' post (k a) g) : Simulates b post (Run.changeBindings h >>= k) g := by
  have hrun (host : σ) : (Run.changeBindings h >>= k) ⟨b, host⟩ = k a ⟨b', host⟩ := by
    simp [Bind.bind, EStateM.bind, Run.changeBindings, hchange]
  intro host
  rw [hrun]
  exact hk host

/-- Where a change of the bindings fails, so may what does not change them. -/
lemma changeBindings_error {h : Bindings → Except RunError α × Bindings} {b' : Bindings}
    {e : RunError} {k : α → EStateM Stop (Run σ) β} (hchange : h b = (.error e, b')) :
    Simulates b post (Run.changeBindings h >>= k) (MonadExcept.throw (.failed e)) :=
  fun _ => ⟨b', by simp [Bind.bind, EStateM.bind, Run.changeBindings, hchange]⟩

end Simulates

/-! ## Loops -/

namespace Simulates

variable {b : Bindings} {name : String} {stop step : Value} {body : EStateM Stop (Run σ) Unit}
  {inner : Scope → EStateM Stop σ Unit}

/-- The rounds of a loop keep its variable on top of the bindings that it found.  The induction is on
the limit: a round that is not the last leaves one round less. -/
lemma rounds (hbody : ∀ current, Simulates ((name, some current) :: b)
      (· = (name, some current) :: b) body (inner (b.scope.extend name current)))
    (limit : Nat) (current : Value) :
    Simulates ((name, some current) :: b) (fun b' => ∃ last, b' = (name, last) :: b)
      (Run.rounds name stop step body limit)
      (b.scope.rounds name stop step inner limit current) := by
  induction limit generalizing current with
  | zero => exact throw .unfinished
  | succ limit ih =>
    unfold Run.rounds Scope.rounds
    refine bind (readBindings ?_) ?_
    · rw [Bindings.peek_cons]
      rfl
    rintro _ order rfl
    split
    · exact pure () ⟨some current, rfl⟩
    refine bind (hbody current) ?_
    rintro _ _ rfl
    -- What the loop steps is the variable on top, for the body has left it there.
    cases hnext : Value.calculate .add (some current) (some step) with
    | ok next =>
      have hstep : Bindings.apply name .add (some step) ((name, some current) :: b) =
          (.ok (), (name, some next) :: b) := by
        simp only [Bindings.apply_cons, Slot.apply, hnext]
      exact changeBindings hstep (ih next)
    | error e =>
      have hstep : Bindings.apply name .add (some step) ((name, some current) :: b) =
          (.error e, (name, some current) :: b) := by
        simp only [Bindings.apply_cons, Slot.apply, hnext]
      exact changeBindings_error hstep

/-- A loop takes its variable back: the bindings are those that it found. -/
lemma loop {limit : Nat} {header : LoopHeader}
    (hbody : ∀ current, Simulates ((header.name, some current) :: b)
      (· = (header.name, some current) :: b) body
      (inner (b.scope.extend header.name current))) :
    Simulates b (· = b) (Run.loop limit header body) (b.scope.loop limit header inner) := by
  unfold Run.loop Scope.loop
  refine bind (readBindings (header.start.operandValue_eq b)) ?_
  rintro _ start rfl
  refine bind (readBindings (header.stop.operandValue_eq _)) ?_
  rintro _ stop rfl
  refine bind (readBindings ?_) ?_
  · cases header.step with
    | none => rfl
    | some element => exact element.operandValue_eq _
  rintro b step rfl
  refine changeBindings rfl ?_
  rw [← bind_pure (Scope.rounds _ _ _ _ _ _ _)]
  refine bind (rounds hbody limit start) ?_
  rintro _ _ ⟨last, rfl⟩
  refine fun host => ⟨b, rfl, ?_⟩
  simp only [discard, Functor.discard, Functor.mapConst, Function.comp_apply, Function.const,
    EStateM.map, Run.changeBindings, Bindings.pop_cons]

end Simulates

variable [Host σ]

/-! ## Texts and echo tags -/

namespace Simulates

variable {b : Bindings}

lemma write (text : String) :
    Simulates b (· = b) (Run.write text : EStateM Stop (Run σ) Unit) (Scope.write text) := by
  intro host
  cases hwrite : Host.write text host with
  | ok _ host' => simp [Scope.write, Run.write, hwrite]
  | error reason host' => simp [Scope.write, Run.write, hwrite]

end Simulates

/-- What an element does depends on the bindings through their scope only. -/
lemma Element.evaluate_eq (b : Bindings) (e : Element) :
    (e.evaluate b : EStateM RunError (Desk σ) Unit) = b.scope.evaluate e := by
  cases e with
  | «variable» name =>
    simp only [evaluate, Scope.evaluate, b.value_eq name]
  | number | string | function | operator => rfl

namespace Simulates

variable {b : Bindings}

lemma compute (elements : List Element) :
    Simulates b (· = b) (Run.compute elements : EStateM Stop (Run σ) (List Value))
      (b.scope.compute elements) := by
  have hevaluate : Element.evaluate b = (b.scope.evaluate : Element → EStateM RunError (Desk σ) Unit) :=
    funext fun e => e.evaluate_eq b
  intro host
  cases hdesk : elements.forM (b.scope.evaluate : Element → EStateM RunError (Desk σ) Unit)
      ⟨[], host⟩ with
  | ok _ desk => simp [Scope.compute, Run.compute, hevaluate, hdesk]
  | error e desk => simp [Scope.compute, Run.compute, hevaluate, hdesk]

lemma echo (elements : List Element) :
    Simulates b (· = b) (Run.echo elements : EStateM Stop (Run σ) Unit)
      (b.scope.echo elements) := by
  refine bind (compute elements) ?_
  rintro _ values rfl
  exact forM fun v => write v.text

end Simulates

/-! ## Documents -/

mutual

theorem Node.simulates (limit : Nat) (b : Bindings) : (node : Node) →
    Simulates b (· = b) (node.run limit : EStateM Stop (Run σ) Unit) (node.runIn limit b.scope)
  | .text s => .write s
  | .echo elements => .echo elements
  | .loop header body => by
    refine .loop fun current => ?_
    have := Document.simulates limit ((header.name, some current) :: b) body
    rwa [Bindings.scope_cons] at this

theorem Document.simulates (limit : Nat) (b : Bindings) : (nodes : List Node) →
    Simulates b (· = b) (Document.run limit nodes : EStateM Stop (Run σ) Unit)
      (Document.runIn limit b.scope nodes)
  | [] => .pure () rfl
  | node :: rest => by
    refine .bind (Node.simulates limit b node) ?_
    rintro _ _ rfl
    exact Document.simulates limit _ rest

end

/-- The result of a run and its host, without the bindings. -/
def Run.outcome {α : Type} : EStateM.Result Stop (Run σ) α → EStateM.Result Stop σ α
  | .ok a r => .ok a r.host
  | .error stop r => .error stop r.host

/-- A run on stacks ends as the run in the scope of its innermost bindings does, and leaves the host
as that does.  If it succeeds, every name has the bindings that it had before. -/
theorem Document.run_eq_runIn (limit : Nat) (nodes : List Node) (b : Bindings) (host : σ) :
    Run.outcome (Document.run limit nodes ⟨b, host⟩) = Document.runIn limit b.scope nodes host ∧
      ∀ r, Document.run limit nodes ⟨b, host⟩ = .ok () r →
        ∀ name, r.bindings.stack name = b.stack name := by
  have hsimulates := Document.simulates limit b nodes host
  cases hscoped : Document.runIn limit b.scope nodes host with
  | ok _ host' =>
    rw [hscoped] at hsimulates
    obtain ⟨_, rfl, hrun⟩ := hsimulates
    rw [hrun]
    refine ⟨rfl, ?_⟩
    rintro _ ⟨⟩ name
    rfl
  | error stop host' =>
    rw [hscoped] at hsimulates
    obtain ⟨b', hrun⟩ := hsimulates
    rw [hrun]
    refine ⟨rfl, ?_⟩
    rintro _ ⟨⟩

/-! ## Endings of runs -/

/-- How a run ends: its outcome, the host and, if it succeeds, the bindings that it leaves. -/
def Run.ending : EStateM.Result Stop (Run σ) Unit → EStateM.Result Stop σ Bindings
  | .ok _ r => .ok r.bindings r.host
  | .error stop r => .error stop r.host

/-- A run ends as the run in scope does; if it succeeds, it leaves the bindings that it found. -/
lemma Document.ending_run (limit : Nat) (nodes : List Node) (b : Bindings) (host : σ) :
    Run.ending (Document.run limit nodes ⟨b, host⟩) =
      (do Document.runIn limit b.scope nodes; return b : EStateM Stop σ Bindings) host := by
  have hsimulates := Document.simulates limit b nodes host
  simp only [bind, EStateM.bind, pure, EStateM.pure]
  cases hscoped : Document.runIn limit b.scope nodes host with
  | ok _ host' =>
    rw [hscoped] at hsimulates
    obtain ⟨_, rfl, hrun⟩ := hsimulates
    rw [hrun]
    rfl
  | error stop host' =>
    rw [hscoped] at hsimulates
    obtain ⟨b', hrun⟩ := hsimulates
    rw [hrun]
    rfl

/-- A document begins with nothing in scope. -/
lemma Document.execute_eq_runIn (limit : Nat) (document : Document) :
    (document.execute limit : EStateM Stop σ Unit) =
      Document.runIn limit (Bindings.scope []) document := by
  funext host
  have hsimulates := Document.simulates limit [] document host
  rw [execute]
  cases hscoped : Document.runIn limit (Bindings.scope []) document host with
  | ok _ host' =>
    rw [hscoped] at hsimulates
    obtain ⟨_, -, hrun⟩ := hsimulates
    rw [hrun]
  | error stop host' =>
    rw [hscoped] at hsimulates
    obtain ⟨b', hrun⟩ := hsimulates
    rw [hrun]

end PageScript
