import PageScript.Proofs.Run.LexicalScoping
/-!
# The limit does nothing but stop loops

A run is given a limit on the rounds of each loop.  If it ends before a loop meets the limit, it
ends in the same way under every larger one.  So how a document ends, given rounds enough, is a
matter of the document, the bindings and the host alone.
-/

namespace PageScript

variable {σ : Type}

/-! ## Runs that go on where others were stopped -/

/-- `n` does what `m` does, except that it may go on where `m` is left unfinished. -/
def GoesOn {α : Type} (m n : EStateM Stop σ α) : Prop :=
  ∀ host, (∃ host', m host = .error .unfinished host') ∨ n host = m host

namespace GoesOn

variable {α β : Type} {m n : EStateM Stop σ α}

lemma refl (m : EStateM Stop σ α) : GoesOn m m := fun _ => .inr rfl

lemma bind {k l : α → EStateM Stop σ β} (hm : GoesOn m n) (hk : ∀ a, GoesOn (k a) (l a)) :
    GoesOn (m >>= k) (n >>= l) := by
  intro host
  simp only [Bind.bind, EStateM.bind]
  rcases hm host with ⟨host', hstop⟩ | hsame
  · exact .inl ⟨host', by rw [hstop]⟩
  rw [hsame]
  cases m host with
  | ok a host' => exact hk a host'
  | error stop host' => exact .inr rfl

variable {scope : Scope} {body body' : Scope → EStateM Stop σ Unit} {limit limit' : Nat}

/-- The rounds of a loop go on under a larger limit, if its body does.  The induction is on the
smaller limit: where it is used up, the loop is left unfinished. -/
lemma rounds {name : String} {stop step : Value}
    (hbody : ∀ inner, GoesOn (body inner) (body' inner)) (hlimit : limit ≤ limit')
    (current : Value) :
    GoesOn (scope.rounds name stop step body limit current)
      (scope.rounds name stop step body' limit' current) := by
  induction limit generalizing limit' current with
  | zero => exact fun host => .inl ⟨host, rfl⟩
  | succ limit ih =>
    obtain ⟨limit', rfl⟩ : ∃ k, limit' = k + 1 := ⟨limit' - 1, by omega⟩
    unfold Scope.rounds
    refine bind (refl _) fun order => ?_
    split
    · exact refl _
    · refine bind (hbody _) fun _ => bind (refl _) fun next => ?_
      exact ih (Nat.le_of_succ_le_succ hlimit) next

lemma loop {header : LoopHeader} (hbody : ∀ inner, GoesOn (body inner) (body' inner))
    (hlimit : limit ≤ limit') :
    GoesOn (scope.loop limit header body) (scope.loop limit' header body') := by
  unfold Scope.loop
  refine bind (refl _) fun start => bind (refl _) fun stop => bind (refl _) fun step => ?_
  exact rounds hbody hlimit start

end GoesOn

variable [Host σ] {limit limit' : Nat}

mutual

theorem Node.goesOn (h : limit ≤ limit') (scope : Scope) : (node : Node) →
    GoesOn (node.runIn limit scope : EStateM Stop σ Unit) (node.runIn limit' scope)
  | .text _ | .echo _ => .refl _
  | .loop _ body => .loop (fun inner => Document.goesOn h inner body) h

theorem Document.goesOn (h : limit ≤ limit') (scope : Scope) : (nodes : List Node) →
    GoesOn (Document.runIn limit scope nodes : EStateM Stop σ Unit)
      (Document.runIn limit' scope nodes)
  | [] => .refl _
  | node :: rest => .bind (Node.goesOn h scope node) fun _ => Document.goesOn h scope rest

end

/-! ## Endings -/

namespace Document

variable {nodes : List Node} {b : Bindings} {host : σ}
  {ending ending' : EStateM.Result Stop σ Bindings}

/-- The nodes end so, given rounds enough: with this outcome, this host and, if they succeed, these
bindings. -/
structure Ends (nodes : List Node) (b : Bindings) (host : σ)
    (ending : EStateM.Result Stop σ Bindings) : Prop where
  /-- Some limit is large enough. -/
  exists_limit : ∃ limit, Run.ending (Document.run limit nodes ⟨b, host⟩) = ending
  /-- The run is not left unfinished. -/
  finished : ∀ host', ending ≠ .error .unfinished host'

/-- Nodes that end so under some limit end so under every larger one. -/
theorem Ends.exists_forall_le (h : Ends nodes b host ending) :
    ∃ limit, ∀ limit' ≥ limit, Run.ending (Document.run limit' nodes ⟨b, host⟩) = ending := by
  obtain ⟨limit, hending⟩ := h.exists_limit
  refine ⟨limit, fun limit' hle => ?_⟩
  rw [ending_run] at hending ⊢
  have hgoes := GoesOn.bind (Document.goesOn hle b.scope nodes) fun _ =>
    GoesOn.refl (pure b : EStateM Stop σ Bindings)
  rcases hgoes host with ⟨host', hstop⟩ | hsame
  · exact absurd (hending.symm.trans hstop) (h.finished host')
  · exact hsame.trans hending

/-- There is at most one way for nodes to end. -/
theorem Ends.unique (h : Ends nodes b host ending) (h' : Ends nodes b host ending') :
    ending = ending' := by
  obtain ⟨limit, hlimit⟩ := h.exists_forall_le
  obtain ⟨limit', hlimit'⟩ := h'.exists_forall_le
  rw [← hlimit (max limit limit') (Nat.le_max_left _ _), hlimit' _ (Nat.le_max_right _ _)]

/-- Nodes that do under all large limits what others do end as those do. -/
lemma Ends.of_forall_ge {nodes' : List Node} (hends : Ends nodes b host ending) (least : Nat)
    (h : ∀ limit ≥ least, Run.ending (Document.run limit nodes ⟨b, host⟩) =
      Run.ending (Document.run limit nodes' ⟨b, host⟩)) : Ends nodes' b host ending := by
  obtain ⟨limit, hlimit⟩ := hends.exists_forall_le
  refine ⟨⟨max limit least, ?_⟩, hends.finished⟩
  rw [← h _ (Nat.le_max_right _ _), hlimit _ (Nat.le_max_left _ _)]

end Document

end PageScript
