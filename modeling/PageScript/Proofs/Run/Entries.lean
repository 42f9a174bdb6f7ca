import PageScript.Proofs.Run.Requests
import PageScript.Proofs.Run.Unrolling
/-!
# Where a loop enters its body

A loop whose body is watched is the same loop, and in the end it tells in which states it has entered
its body: with which bindings, and with which host.  It tells so however it ends, also where its body
fails or where it is left unfinished.

A body that restores the bindings cannot touch the variable of the loop in between.  So the bindings
at the entries are those before the loop, with the loop variable in front of them, and the values of
the variable are those that the steps alone make of the first.
-/

namespace PageScript

variable {σ : Type}

/-- A host, with the states in which a loop has entered its body. -/
structure Watched (σ : Type) where
  /-- The host. -/
  host : σ
  /-- The states, in order. -/
  entries : List (Run σ)

namespace Run

/-- Runs a body, and writes down the state in which it is entered. -/
def watch (body : EStateM Stop (Run σ) Unit) : EStateM Stop (Run (Watched σ)) Unit := fun
  | ⟨bindings, host, entries⟩ =>
    match body ⟨bindings, host⟩ with
    | .ok _ r => .ok () ⟨r.bindings, r.host, entries ++ [⟨bindings, host⟩]⟩
    | .error stop r => .error stop ⟨r.bindings, r.host, entries ++ [⟨bindings, host⟩]⟩

/-- The states in which a loop enters its body, in order. -/
def entries (limit : Nat) (header : LoopHeader) (body : EStateM Stop (Run σ) Unit) (r : Run σ) :
    List (Run σ) :=
  (stateAfter (loop limit header (watch body) ⟨r.bindings, r.host, []⟩)).host.entries

/-! ## A watched loop is the loop -/

/-- The end of a computation, without what has been watched. -/
def unwatched {α : Type} :
    EStateM.Result Stop (Run (Watched σ)) α → EStateM.Result Stop (Run σ) α
  | .ok a w => .ok a ⟨w.bindings, w.host.host⟩
  | .error stop w => .error stop ⟨w.bindings, w.host.host⟩

/-- Bindings and hosts are the same, whatever has been watched. -/
structure Watches (r : Run σ) (w : Run (Watched σ)) : Prop where
  bindings_eq : w.bindings = r.bindings
  host_eq : w.host.host = r.host

/-- Agreement of what is done with and without a watch. -/
abbrev WatchAgrees {α : Type} (m : EStateM Stop (Run σ) α) (n : EStateM Stop (Run (Watched σ)) α) :
    Prop :=
  Agrees Watches (fun _ => False) m n

lemma watchAgrees_readBindings {α : Type} (f : Bindings → Except RunError α) :
    WatchAgrees (readBindings f : EStateM Stop (Run σ) α) (readBindings f) := by
  rintro ⟨_, _⟩ ⟨b, host, es⟩ ⟨rfl, rfl⟩
  simp only [readBindings]
  cases f b with
  | ok a => exact .ok a ⟨rfl, rfl⟩
  | error e => exact .error _ ⟨rfl, rfl⟩

lemma watchAgrees_changeBindings {α : Type} (f : Bindings → Except RunError α × Bindings) :
    WatchAgrees (changeBindings f : EStateM Stop (Run σ) α) (changeBindings f) := by
  rintro ⟨_, _⟩ ⟨b, host, es⟩ ⟨rfl, rfl⟩
  simp only [changeBindings]
  rcases f b with ⟨a | e, b'⟩
  · exact .error _ ⟨rfl, rfl⟩
  · exact .ok _ ⟨rfl, rfl⟩

variable (body : EStateM Stop (Run σ) Unit)

lemma watchAgrees_watch : WatchAgrees body (watch body) := by
  rintro ⟨_, _⟩ ⟨b, host, es⟩ ⟨rfl, rfl⟩
  simp only [watch]
  generalize body _ = r
  cases r with
  | ok _ r => exact .ok () ⟨rfl, rfl⟩
  | error stop r => exact .error stop ⟨rfl, rfl⟩

lemma watchAgrees_rounds (name : String) (stop step : Value) (limit : Nat) :
    WatchAgrees (rounds name stop step body limit) (rounds name stop step (watch body) limit) := by
  induction limit with
  | zero => exact .throw _
  | succ limit ih =>
    unfold rounds
    refine (watchAgrees_readBindings _).bind fun order => ?_
    split
    · exact .pure ()
    · exact (watchAgrees_watch body).bind fun _ => (watchAgrees_changeBindings _).bind fun _ => ih

/-- A watched loop ends as the loop does, with the same bindings and the same host. -/
theorem unwatched_loop (limit : Nat) (header : LoopHeader) (r : Run σ) :
    unwatched (loop limit header (watch body) ⟨r.bindings, r.host, []⟩) =
      loop limit header body r := by
  have hagrees : WatchAgrees (loop limit header body) (loop limit header (watch body)) := by
    unfold loop
    simp only [discard, Functor.discard, Function.comp_apply, map_const, map_eq_pure_bind]
    refine (watchAgrees_readBindings _).bind fun start => ?_
    refine (watchAgrees_readBindings _).bind fun stop => ?_
    refine (watchAgrees_readBindings _).bind fun step => ?_
    refine (watchAgrees_changeBindings _).bind fun _ => ?_
    refine (watchAgrees_rounds body _ _ _ _).bind fun _ => ?_
    exact (watchAgrees_changeBindings _).bind fun _ => .pure _
  have hends := hagrees r ⟨r.bindings, r.host, []⟩ ⟨rfl, rfl⟩
  generalize loop limit header body r = s, loop limit header (watch body) _ = s' at hends
  cases hends with
  | ok _ h | error _ h =>
    rw [unwatched, h.bindings_eq, h.host_eq]
  | excused h => exact h.elim

/-! ## Single rounds -/

section Rounds

variable {body} {b : Bindings} {name : String} {v next stop step : Value} {order : Ordering}
  {limit : Nat} {host host' : σ}

/-- A variable that is greater than the limit ends the loop. -/
lemma rounds_of_gt (h : Value.order (some v) (some stop) = .ok .gt) :
    rounds name stop step body (limit + 1) ⟨(name, some v) :: b, host⟩ =
      .ok () ⟨(name, some v) :: b, host⟩ := by
  simp [rounds, readBindings, Bindings.peek_cons, h, bind, EStateM.bind, Except.bind, pure,
    EStateM.pure]

/-- A variable that cannot be compared with the limit is the last of the loop, too. -/
lemma rounds_of_order_error {e : RunError} (h : Value.order (some v) (some stop) = .error e) :
    rounds name stop step body (limit + 1) ⟨(name, some v) :: b, host⟩ =
      .error (.failed e) ⟨(name, some v) :: b, host⟩ := by
  simp [rounds, readBindings, Bindings.peek_cons, h, bind, EStateM.bind, Except.bind]

/-- Otherwise there is a round, and the loop fails where its body does. -/
lemma rounds_of_body_error {early : Stop} {r : Run σ}
    (h : Value.order (some v) (some stop) = .ok order) (hround : order ≠ .gt)
    (hbody : body ⟨(name, some v) :: b, host⟩ = .error early r) :
    rounds name stop step body (limit + 1) ⟨(name, some v) :: b, host⟩ = .error early r := by
  simp [rounds, readBindings, Bindings.peek_cons, h, hround, hbody, bind, EStateM.bind, Except.bind]

/-- If the body succeeds and leaves the bindings as it found them, the loop goes on with the next
value of its variable. -/
lemma rounds_of_body_ok (h : Value.order (some v) (some stop) = .ok order) (hround : order ≠ .gt)
    (hbody : body ⟨(name, some v) :: b, host⟩ = .ok () ⟨(name, some v) :: b, host'⟩)
    (hnext : Value.calculate .add (some v) (some step) = .ok next) :
    rounds name stop step body (limit + 1) ⟨(name, some v) :: b, host⟩ =
      rounds name stop step body limit ⟨(name, some next) :: b, host'⟩ := by
  simp [rounds, readBindings, changeBindings, Bindings.peek_cons, Bindings.apply_cons, Slot.apply, h,
    hround, hbody, hnext, bind, EStateM.bind, Except.bind]

end Rounds

/-! ## The entries of the rounds -/

section Entries

variable {body} {b : Bindings} {name : String} {stop step : Value} {v : Nat → Value}

lemma watch_of_ok {r r' : Run σ} (h : body r = .ok () r') (es : List (Run σ)) :
    watch body ⟨r.bindings, r.host, es⟩ = .ok () ⟨r'.bindings, r'.host, es ++ [r]⟩ := by
  simp only [watch, h]

lemma watch_of_error {early : Stop} {r r' : Run σ} (h : body r = .error early r')
    (es : List (Run σ)) :
    watch body ⟨r.bindings, r.host, es⟩ = .error early ⟨r'.bindings, r'.host, es ++ [r]⟩ := by
  simp only [watch, h]

/-- After some rounds whose bodies succeed, the loop goes on with the value that the steps have made
of the first. -/
lemma rounds_watch_add {n : Nat} {host : Nat → σ}
    (hround : ∀ k < n, ∃ order, Value.order (some (v k)) (some stop) = .ok order ∧ order ≠ .gt)
    (hnext : ∀ k < n, Value.calculate .add (some (v k)) (some step) = .ok (v (k + 1)))
    (hbody : ∀ k < n, body ⟨(name, some (v k)) :: b, host k⟩ =
      .ok () ⟨(name, some (v k)) :: b, host (k + 1)⟩) (es : List (Run σ)) (limit : Nat) :
    rounds name stop step (watch body) (limit + n) ⟨(name, some (v 0)) :: b, host 0, es⟩ =
      rounds name stop step (watch body) limit ⟨(name, some (v n)) :: b, host n,
        es ++ (List.range n).map fun k => ⟨(name, some (v k)) :: b, host k⟩⟩ := by
  induction n generalizing limit with
  | zero => simp
  | succ n ih =>
    -- the first `n` rounds leave one more round to go, and it is the last one here
    obtain ⟨order, horder, hne⟩ := hround n n.lt_succ_self
    have hfirst := ih (fun k hk => hround k (Nat.lt_succ_of_lt hk))
      (fun k hk => hnext k (Nat.lt_succ_of_lt hk)) (fun k hk => hbody k (Nat.lt_succ_of_lt hk))
      (limit + 1)
    rw [← Nat.add_assoc, Nat.add_right_comm, hfirst, List.range_succ, List.map_append,
      ← List.append_assoc]
    exact rounds_of_body_ok horder hne (watch_of_ok (hbody n n.lt_succ_self) _)
      (hnext n n.lt_succ_self)

/-- A body restores the bindings if it leaves them as it found them, unless it stops early. -/
def Restores (body : EStateM Stop (Run σ) Unit) : Prop :=
  ∀ r r', body r = .ok () r' → r'.bindings = r.bindings

/-- However a loop ends whose body restores the bindings: where it enters its body, the bindings are
those before the loop with one more for the loop variable, whose value is what the steps have made of
the first, and not greater than the limit.  The induction is on the rounds that are left. -/
lemma exists_rounds_entries (hbody : Restores body)
    (hnext : ∀ k, Value.calculate .add (some (v k)) (some step) = .ok (v (k + 1)))
    (limit : Nat) (host : σ) (es : List (Run σ)) :
    ∃ n, (∀ k < n, ∃ order, Value.order (some (v k)) (some stop) = .ok order ∧ order ≠ .gt) ∧
      (stateAfter (rounds name stop step (watch body) limit
          ⟨(name, some (v 0)) :: b, host, es⟩)).host.entries.map bindings =
        es.map bindings ++ (List.range n).map fun k => (name, some (v k)) :: b := by
  induction limit generalizing v host es with
  | zero => exact ⟨0, by simp, (List.append_nil _).symm⟩
  | succ limit ih =>
    cases horder : Value.order (some (v 0)) (some stop) with
    | error e => exact ⟨0, by simp, by simp [rounds_of_order_error horder, stateAfter]⟩
    | ok order =>
      by_cases hgt : order = .gt
      · subst hgt
        exact ⟨0, by simp, by simp [rounds_of_gt horder, stateAfter]⟩
      -- the body is entered, so this is an entry even if the body stops early
      cases hrun : body ⟨(name, some (v 0)) :: b, host⟩ with
      | error early r =>
        refine ⟨1, fun k hk => ?_, ?_⟩
        · obtain rfl : k = 0 := Nat.lt_one_iff.1 hk
          exact ⟨order, horder, hgt⟩
        · rw [rounds_of_body_error horder hgt (watch_of_error hrun es)]
          simp [stateAfter]
      | ok _ r =>
        obtain ⟨b', host'⟩ := r
        obtain rfl : b' = (name, some (v 0)) :: b := hbody _ _ hrun
        obtain ⟨n, hround, hentries⟩ := ih (v := fun k => v (k + 1)) (fun k => hnext (k + 1)) host'
          (es ++ [⟨(name, some (v 0)) :: b, host⟩])
        refine ⟨n + 1, fun k hk => ?_, ?_⟩
        · cases k with
          | zero => exact ⟨order, horder, hgt⟩
          | succ k => exact hround k (Nat.lt_of_succ_lt_succ hk)
        · rw [rounds_of_body_ok horder hgt (watch_of_ok hrun es) (hnext 0), hentries,
            List.range_succ_eq_map]
          simp

end Entries

/-! ## The entries of a loop -/

section Loop

variable {body} {b : Bindings} {header : LoopHeader} {start stop step : Value}

/-- A loop whose values are at hand goes through its rounds, and takes its variable back. -/
lemma loop_eq (hstart : header.start.operandValue b = .ok start)
    (hstop : header.stop.operandValue b = .ok stop) (hstep : header.stepValue b = .ok step)
    (limit : Nat) (host : σ) :
    loop limit header body ⟨b, host⟩ =
      (do
        rounds header.name stop step body limit
        discard <| changeBindings (Bindings.pop header.name))
      ⟨(header.name, some start) :: b, host⟩ := by
  obtain ⟨name, first, last, element⟩ := header
  cases element with
  | none =>
    obtain rfl : Value.int 1 = step := Except.ok.inj hstep
    simp only [loop, bind, EStateM.bind, readBindings, hstart, hstop, changeBindings, Bindings.push]
  | some element =>
    have hstep : element.operandValue b = .ok step := hstep
    simp only [loop, bind, EStateM.bind, readBindings, hstart, hstop, hstep, changeBindings,
      Bindings.push]

/-- Taking a variable back is nothing to the host. -/
lemma host_discard_pop {r : Run σ} (name : String) :
    (stateAfter ((discard <| changeBindings (Bindings.pop name)) r)).host = r.host := by
  obtain ⟨b, host⟩ := r
  simp only [discard, Functor.discard, Function.comp_apply, map_const, map_eq_pure_bind, bind,
    EStateM.bind, changeBindings]
  rcases Bindings.pop name b with ⟨e | slot, b'⟩ <;> rfl

/-- A loop enters its body where its rounds do. -/
lemma entries_eq (hstart : header.start.operandValue b = .ok start)
    (hstop : header.stop.operandValue b = .ok stop) (hstep : header.stepValue b = .ok step)
    (limit : Nat) (host : σ) :
    entries limit header body ⟨b, host⟩ =
      (stateAfter (rounds header.name stop step (watch body) limit
        ⟨(header.name, some start) :: b, host, []⟩)).host.entries := by
  rw [entries, loop_eq hstart hstop hstep]
  simp only [bind, EStateM.bind]
  cases rounds header.name stop step (watch body) limit
    ⟨(header.name, some start) :: b, host, []⟩ with
  | ok _ w => exact congrArg Watched.entries (host_discard_pop header.name)
  | error early w => rfl

/-- Under a limit that is met after rounds whose bodies succeed, these are all the entries. -/
lemma entries_of_forall {v : Nat → Value} {n : Nat} (host : Nat → σ)
    (hstart : header.start.operandValue b = .ok (v 0))
    (hstop : header.stop.operandValue b = .ok stop) (hstep : header.stepValue b = .ok step)
    (hround : ∀ k < n, ∃ order, Value.order (some (v k)) (some stop) = .ok order ∧ order ≠ .gt)
    (hnext : ∀ k < n, Value.calculate .add (some (v k)) (some step) = .ok (v (k + 1)))
    (hbody : ∀ k < n, body ⟨(header.name, some (v k)) :: b, host k⟩ =
      .ok () ⟨(header.name, some (v k)) :: b, host (k + 1)⟩) :
    entries n header body ⟨b, host 0⟩ =
      (List.range n).map fun k => ⟨(header.name, some (v k)) :: b, host k⟩ := by
  have hrounds := rounds_watch_add hround hnext hbody [] 0
  rw [Nat.zero_add] at hrounds
  rw [entries_eq hstart hstop hstep, hrounds, List.nil_append]
  rfl

/-- Taking the last binding back leaves those before it. -/
lemma discard_pop_cons (name : String) (slot : Slot) (b : Bindings) (host : σ) :
    (discard <| changeBindings (Bindings.pop name)) (⟨(name, slot) :: b, host⟩ : Run σ) =
      .ok () ⟨b, host⟩ := by
  simp [discard, Functor.discard, map_const, map_eq_pure_bind, bind, EStateM.bind, pure,
    EStateM.pure, changeBindings, Bindings.pop, Bindings.peek_cons]

/-- If the bodies of all rounds succeed, and the variable is greater than the limit after the last of
them, the loop succeeds, and leaves the bindings as they were. -/
lemma loop_watch_eq_ok {v : Nat → Value} {n : Nat} {host : Nat → σ}
    (hstart : header.start.operandValue b = .ok (v 0))
    (hstop : header.stop.operandValue b = .ok stop) (hstep : header.stepValue b = .ok step)
    (hround : ∀ k < n, ∃ order, Value.order (some (v k)) (some stop) = .ok order ∧ order ≠ .gt)
    (hlast : Value.order (some (v n)) (some stop) = .ok .gt)
    (hnext : ∀ k < n, Value.calculate .add (some (v k)) (some step) = .ok (v (k + 1)))
    (hbody : ∀ k < n, body ⟨(header.name, some (v k)) :: b, host k⟩ =
      .ok () ⟨(header.name, some (v k)) :: b, host (k + 1)⟩) {limit : Nat} (hlimit : n < limit) :
    loop limit header (watch body) ⟨b, host 0, []⟩ =
      .ok () ⟨b, host n, (List.range n).map fun k => ⟨(header.name, some (v k)) :: b, host k⟩⟩ := by
  obtain ⟨rest, rfl⟩ : ∃ rest, limit = rest + 1 + n := ⟨limit - 1 - n, by omega⟩
  rw [loop_eq hstart hstop hstep]
  simp only [bind, EStateM.bind, rounds_watch_add hround hnext hbody, List.nil_append,
    rounds_of_gt hlast]
  exact discard_pop_cons header.name _ b _

end Loop

/-- Nodes restore the bindings. -/
lemma restores_run [Host σ] (limit : Nat) (nodes : List Node) :
    Restores (Document.run limit nodes : EStateM Stop (Run σ) Unit) := by
  rintro ⟨b, host⟩ r h
  have hending := Document.ending_run limit nodes b host
  rw [h] at hending
  simp only [ending, bind, EStateM.bind, pure, EStateM.pure] at hending
  cases hscoped : Document.runIn limit b.scope nodes host with
  | ok _ host' =>
    rw [hscoped] at hending
    exact (EStateM.Result.ok.inj hending).1
  | error early host' =>
    rw [hscoped] at hending
    cases hending

end Run

end PageScript
