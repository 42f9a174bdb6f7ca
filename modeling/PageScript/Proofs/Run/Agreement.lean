import PageScript.Proofs.Run.LexicalScoping
/-!
# Runs on two hosts

A document runs on two hosts, whose states are related.  Where each action of one host agrees with
the same action of the other, the run on the one agrees with the run on the other: both succeed or
fail with the same error, and leave related states.

The second host may refuse what the first grants.  Such refusals are excused: where the second run
ends with one of them, nothing is asked of the first.
-/

namespace PageScript

variable {σ τ : Type}

/-- How a run that ends in the first way may agree with one that ends in the second. -/
inductive Agreement {ε α : Type} (R : σ → τ → Prop) (excused : ε → Prop) :
    EStateM.Result ε σ α → EStateM.Result ε τ α → Prop
  /-- Both succeed with the same result. -/
  | ok {s : σ} {t : τ} (a : α) (related : R s t) : Agreement R excused (.ok a s) (.ok a t)
  /-- Both fail with the same error. -/
  | error {s : σ} {t : τ} (e : ε) (related : R s t) :
      Agreement R excused (.error e s) (.error e t)
  /-- The second fails, and is excused. -/
  | excused {r : EStateM.Result ε σ α} {e : ε} {t : τ} (excuse : excused e) :
      Agreement R excused r (.error e t)

/-- Two computations agree if, begun in related states, they end in agreement. -/
def Agrees {ε α : Type} (R : σ → τ → Prop) (excused : ε → Prop) (m : EStateM ε σ α)
    (n : EStateM ε τ α) : Prop :=
  ∀ s t, R s t → Agreement R excused (m s) (n t)

namespace Agrees

variable {ε α β : Type} {R : σ → τ → Prop} {excused : ε → Prop} {m : EStateM ε σ α}
  {n : EStateM ε τ α}

lemma pure (a : α) : Agrees R excused (Pure.pure a) (Pure.pure a) :=
  fun _ _ h => .ok a h

lemma throw (e : ε) :
    Agrees R excused (MonadExcept.throw e : EStateM ε σ α) (MonadExcept.throw e) :=
  fun _ _ h => .error e h

lemma bind {k : α → EStateM ε σ β} {l : α → EStateM ε τ β} (hm : Agrees R excused m n)
    (hk : ∀ a, Agrees R excused (k a) (l a)) : Agrees R excused (m >>= k) (n >>= l) := by
  intro s t h
  have hends := hm s t h
  simp only [Bind.bind, EStateM.bind]
  generalize m s = r, n t = r' at hends
  cases hends with
  | ok a h => exact hk a _ _ h
  | error e h => exact .error e h
  | excused h => exact .excused h

lemma forM {as : List α} {k : α → EStateM ε σ Unit} {l : α → EStateM ε τ Unit}
    (h : ∀ a, Agrees R excused (k a) (l a)) : Agrees R excused (as.forM k) (as.forM l) := by
  induction as with
  | nil => exact pure ()
  | cons a as ih =>
    simp only [List.forM_eq_forM, List.forM_cons]
    exact bind (h a) fun _ => ih

end Agrees

/-! ## Hosts that agree -/

/-- Two hosts agree if their actions do.  The second may refuse a media type, or to hand the request
on, where it is excused. -/
structure Host.Agree [Host σ] [Host τ] (R : σ → τ → Prop) (excused : HostError → Prop) : Prop where
  write : ∀ text, Agrees R (fun _ => False) (Host.write text) (Host.write text)
  params_eq : ∀ {s t}, R s t → ∀ store, Host.params store s = Host.params store t
  setParams : ∀ {s t}, R s t → ∀ memory params,
    R (Host.setParams memory params s) (Host.setParams memory params t)
  setMime : ∀ mime, Agrees R excused (Host.setMime mime) (Host.setMime mime)
  dispatch : ∀ path, Agrees R excused (Host.dispatch path) (Host.dispatch path)

/-- A failure that is a refusal of the host, of the kind that `p` says. -/
def RunError.IsRefusal (p : HostError → Prop) : RunError → Prop
  | .host e => p e
  | _ => False

/-- An early end that is a refusal of the host, of the kind that `p` says. -/
def Stop.IsRefusal (p : HostError → Prop) : Stop → Prop
  | .failed e => e.IsRefusal p
  | .unfinished => False

lemma Stop.isRefusal_iff {p : HostError → Prop} {stop : Stop} :
    stop.IsRefusal p ↔ ∃ e, stop = .failed (.host e) ∧ p e := by
  constructor
  · intro h
    rcases stop with e | _
    · cases e with
      | host e => exact ⟨e, rfl, h⟩
      | _ => exact h.elim
    · exact h.elim
  · rintro ⟨e, rfl, h⟩
    exact h

/-- Where no refusal is meant, there is none. -/
lemma Stop.not_isRefusal (stop : Stop) : ¬ stop.IsRefusal fun _ => False := by
  rw [isRefusal_iff]
  rintro ⟨e, -, h⟩
  exact h

/-! ## Echo tags -/

/-- Whether a function works on values alone, and asks nothing of the host. -/
def Builtin.onValues : Builtin → Bool
  | sine | formatDecimal | duplicate | swap => true
  | setMimeType | getParam _ | setParam _ | deleteParam _ | dispatch => false

/-- What is computed on a desk without values, bottom first. -/
def Scope.ofDesk (action : EStateM RunError (Desk σ) Unit) : EStateM Stop σ (List Value) :=
  fun host =>
    match action ⟨[], host⟩ with
    | .ok _ desk => .ok desk.values.reverse desk.host
    | .error e desk => .error (.failed e) desk.host

/-- Desks are related if they hold the same values and their hosts are related. -/
structure OnDesk (R : σ → τ → Prop) (d : Desk σ) (d' : Desk τ) : Prop where
  values_eq : d.values = d'.values
  related : R d.host d'.host

/-- Agreement of what is done on a desk. -/
abbrev DeskAgrees {α : Type} (R : σ → τ → Prop) (excused : HostError → Prop)
    (m : EStateM RunError (Desk σ) α) (n : EStateM RunError (Desk τ) α) : Prop :=
  Agrees (OnDesk R) (RunError.IsRefusal excused) m n

namespace DeskAgrees

variable {R : σ → τ → Prop} {excused : HostError → Prop}

lemma push (v : Value) : DeskAgrees R excused (Desk.push v) (Desk.push v) := by
  rintro ⟨values, s⟩ ⟨_, t⟩ ⟨rfl, h⟩
  exact .ok () ⟨rfl, h⟩

lemma pop (element : Element) : DeskAgrees R excused (Desk.pop element) (Desk.pop element) := by
  rintro ⟨values, s⟩ ⟨_, t⟩ ⟨rfl, h⟩
  cases values with
  | nil => exact .error _ ⟨rfl, h⟩
  | cons v values => exact .ok v ⟨rfl, h⟩

lemma ofExcept {α : Type} (result : Except RunError α) :
    DeskAgrees R excused (Desk.ofExcept result) (Desk.ofExcept result) := by
  cases result with
  | ok a => exact .pure a
  | error e => exact .throw e

lemma modifyHost {f : σ → σ} {g : τ → τ} (h : ∀ {s t}, R s t → R (f s) (g t)) :
    DeskAgrees R excused (Desk.modifyHost f) (Desk.modifyHost g) := by
  rintro ⟨values, s⟩ ⟨_, t⟩ ⟨rfl, hst⟩
  exact .ok () ⟨rfl, h hst⟩

lemma readHost {α : Type} {f : σ → α} {g : τ → α} (h : ∀ {s t}, R s t → f s = g t) :
    DeskAgrees R excused (Desk.readHost f) (Desk.readHost g) := by
  rintro ⟨values, s⟩ ⟨_, t⟩ ⟨rfl, hst⟩
  simp only [Desk.readHost, h hst]
  exact .ok _ ⟨rfl, hst⟩

lemma askHost {m : EStateM HostError σ Unit} {n : EStateM HostError τ Unit}
    (h : Agrees R excused m n) : DeskAgrees R excused (Desk.askHost m) (Desk.askHost n) := by
  rintro ⟨values, s⟩ ⟨_, t⟩ ⟨rfl, hst⟩
  have hends := h s t hst
  simp only [Desk.askHost]
  generalize m s = r, n t = r' at hends
  cases hends with
  | ok _ hst => exact .ok () ⟨rfl, hst⟩
  | error e hst => exact .error _ ⟨rfl, hst⟩
  | excused hexcused => exact .excused hexcused

variable [Host σ] [Host τ]

/-- A function that works on values alone does the same on any two hosts. -/
lemma run_of_onValues {f : Builtin} (h : f.onValues = true) :
    DeskAgrees R excused f.run f.run := by
  cases f with
  | sine => exact (pop _).bind fun angle => (ofExcept _).bind fun angle => push _
  | formatDecimal =>
    refine (pop _).bind fun pattern => (pop _).bind fun number => (ofExcept _).bind fun number => ?_
    cases Decimal.Pattern.read? pattern.text.toList with
    | some p => exact push _
    | none => exact .throw _
  | duplicate => exact (pop _).bind fun top => (push top).bind fun _ => push top
  | swap =>
    refine (pop _).bind fun top => (pop _).bind fun second => ?_
    exact (push top).bind fun _ => push second
  | setMimeType | getParam | setParam | deleteParam | dispatch => cases h

/-- A function of echo tags does the same on hosts that agree. -/
lemma run (hosts : Host.Agree R excused) (f : Builtin) : DeskAgrees R excused f.run f.run := by
  cases f with
  | sine | formatDecimal | duplicate | swap => exact run_of_onValues rfl
  | setMimeType => exact (pop _).bind fun mime => askHost (hosts.setMime _)
  | getParam store =>
    refine (pop _).bind fun default => (pop _).bind fun name => ?_
    refine (readHost ?_).bind fun found => push _
    intro s t h
    rw [Host.get?, Host.get?, hosts.params_eq h]
  | setParam memory =>
    refine (pop _).bind fun name => (pop _).bind fun value => modifyHost ?_
    intro s t h
    rw [Host.put, Host.put, hosts.params_eq h]
    exact hosts.setParams h _ _
  | deleteParam memory =>
    refine (pop _).bind fun name => modifyHost ?_
    intro s t h
    rw [Host.erase, Host.erase, hosts.params_eq h]
    exact hosts.setParams h _ _
  | dispatch => exact (pop _).bind fun path => askHost (hosts.dispatch _)

lemma call (hosts : Host.Agree R excused) (name : String) :
    DeskAgrees R excused (Builtin.call name) (Builtin.call name) := by
  unfold Builtin.call
  cases Builtin.ofName? name with
  | some f => exact run hosts f
  | none => exact .throw _

/-- An element other than a function does the same on any two hosts. -/
lemma evaluate_of_ne_function (scope : Scope) {element : Element}
    (h : ∀ name, element ≠ .function name) :
    DeskAgrees R excused (scope.evaluate element) (scope.evaluate element) := by
  cases element with
  | number | string => exact push _
  | «variable» name => exact (ofExcept _).bind fun v => push v
  | operator c =>
    refine (pop _).bind fun right => (pop _).bind fun left => ?_
    cases Operation.ofChar? c with
    | none => exact .throw _
    | some op => exact (ofExcept _).bind fun v => push v
  | function name => exact absurd rfl (h name)

lemma evaluate (hosts : Host.Agree R excused) (scope : Scope) (element : Element) :
    DeskAgrees R excused (scope.evaluate element) (scope.evaluate element) := by
  cases element with
  | function name => exact call hosts name
  | number | string | «variable» | operator => exact evaluate_of_ne_function scope (by simp)

end DeskAgrees

/-! ## Documents -/

/-- Agreement of runs. -/
abbrev RunAgrees {α : Type} (R : σ → τ → Prop) (excused : HostError → Prop)
    (m : EStateM Stop σ α) (n : EStateM Stop τ α) : Prop :=
  Agrees R (Stop.IsRefusal excused) m n

namespace RunAgrees

variable {R : σ → τ → Prop} {excused : HostError → Prop} {scope : Scope} {limit : Nat}

lemma ofExcept {α : Type} (result : Except RunError α) :
    RunAgrees R excused (Scope.ofExcept result : EStateM Stop σ α) (Scope.ofExcept result) := by
  cases result with
  | ok a => exact .pure a
  | error e => exact .throw _

/-- The rounds of a loop agree if its body does.  The induction is on the limit: a round that is not
the last leaves one round less. -/
lemma rounds {name : String} {stop step : Value} {body : Scope → EStateM Stop σ Unit}
    {body' : Scope → EStateM Stop τ Unit}
    (hbody : ∀ inner, RunAgrees R excused (body inner) (body' inner)) (current : Value) :
    RunAgrees R excused (scope.rounds name stop step body limit current)
      (scope.rounds name stop step body' limit current) := by
  induction limit generalizing current with
  | zero => exact .throw _
  | succ limit ih =>
    unfold Scope.rounds
    refine (ofExcept _).bind fun order => ?_
    split
    · exact .pure ()
    · exact (hbody _).bind fun _ => (ofExcept _).bind fun next => ih next

lemma loop {header : LoopHeader} {body : Scope → EStateM Stop σ Unit}
    {body' : Scope → EStateM Stop τ Unit}
    (hbody : ∀ inner, RunAgrees R excused (body inner) (body' inner)) :
    RunAgrees R excused (scope.loop limit header body) (scope.loop limit header body') := by
  unfold Scope.loop
  refine (ofExcept _).bind fun start => (ofExcept _).bind fun stop => ?_
  exact (ofExcept _).bind fun step => rounds hbody start

lemma ofDesk {m : EStateM RunError (Desk σ) Unit} {n : EStateM RunError (Desk τ) Unit}
    (h : DeskAgrees R excused m n) :
    RunAgrees R excused (Scope.ofDesk m) (Scope.ofDesk n) := by
  intro s t hst
  have hends := h ⟨[], s⟩ ⟨[], t⟩ ⟨rfl, hst⟩
  simp only [Scope.ofDesk]
  generalize m ⟨[], s⟩ = r, n ⟨[], t⟩ = r' at hends
  cases hends with
  | ok _ h =>
    dsimp only
    rw [h.values_eq]
    exact .ok _ h.related
  | error e h => exact .error _ h.related
  | excused h => exact .excused h

variable [Host σ] [Host τ]

lemma write {text : String} (h : Agrees R (fun _ => False) (Host.write text) (Host.write text)) :
    RunAgrees R excused (Scope.write text) (Scope.write text) := by
  intro s t hst
  have hends := h s t hst
  simp only [Scope.write]
  generalize Host.write text s = r, Host.write text t = r' at hends
  cases hends with
  | ok _ h => exact .ok () h
  | error reason h => exact .error _ h
  | excused h => exact h.elim

lemma echo (hosts : Host.Agree R excused) (elements : List Element) :
    RunAgrees R excused (scope.echo elements) (scope.echo elements) := by
  refine Agrees.bind ?_ fun values => .forM fun v => write (hosts.write v.text)
  exact ofDesk (.forM (DeskAgrees.evaluate hosts scope))

end RunAgrees

variable [Host σ] [Host τ] {R : σ → τ → Prop} {excused : HostError → Prop}

mutual

theorem Node.agrees (hosts : Host.Agree R excused) (limit : Nat) (scope : Scope) : (node : Node) →
    RunAgrees R excused (node.runIn limit scope) (node.runIn limit scope)
  | .text s => .write (hosts.write s)
  | .echo elements => .echo hosts elements
  | .loop _ body => .loop fun inner => Document.agrees hosts limit inner body

theorem Document.agrees (hosts : Host.Agree R excused) (limit : Nat) (scope : Scope) :
    (nodes : List Node) →
    RunAgrees R excused (Document.runIn limit scope nodes) (Document.runIn limit scope nodes)
  | [] => .pure ()
  | node :: rest =>
    (Node.agrees hosts limit scope node).bind fun _ => Document.agrees hosts limit scope rest

end

/-- A document does the same on hosts that agree. -/
theorem Document.execute_agrees (hosts : Host.Agree R excused) (limit : Nat)
    (document : Document) :
    RunAgrees R excused (document.execute limit) (document.execute limit) := by
  rw [execute_eq_runIn, execute_eq_runIn]
  exact Document.agrees hosts limit _ document

end PageScript
