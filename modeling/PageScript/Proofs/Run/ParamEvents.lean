import PageScript.Proofs.Run.Requests
/-!
# What a run looks up

A run looks parameters up, sets them and removes them.  A traced run does what the run does, and
writes these events down in their order.  So it tells what was found each time, which the host does
not show afterwards.

A store that does what it is asked for gives, for a name, what was last set there, unless that has
been removed since.  The invariant says this of each event that a lookup has left, and of the store
as it stands.
-/

namespace PageScript

/-- What happens to a parameter. -/
inductive ParamEvent where
  /-- It is looked up, and this is found. -/
  | found (store : Store) (name : String) (value : Option String)
  /-- It is set. -/
  | put (memory : Memory) (name value : String)
  /-- It is removed. -/
  | erase (memory : Memory) (name : String)

namespace ParamEvent

/-- What an event leaves under a name, if it changes that: a value, or nothing. -/
def change? (memory : Memory) (name : String) : ParamEvent → Option (Option String)
  | found .. => none
  | put changed n value => if changed = memory ∧ n = name then some (some value) else none
  | erase changed n => if changed = memory ∧ n = name then some none else none

/-- What there is under a name after some events: what the last change has left, and `first` if
there has been none. -/
def last (memory : Memory) (name : String) (first : Option String) (es : List ParamEvent) :
    Option String :=
  (es.reverse.findSome? (change? memory name)).getD first

variable {memory : Memory} {name : String} {first : Option String} {es : List ParamEvent}

@[simp]
lemma last_nil : last memory name first [] = first := rfl

lemma last_concat (e : ParamEvent) :
    last memory name first (es ++ [e]) =
      (e.change? memory name).getD (last memory name first es) := by
  rw [last, List.reverse_append, List.reverse_singleton, List.singleton_append,
    List.findSome?_cons]
  cases e.change? memory name <;> rfl

end ParamEvent

/-- `Remembers memory start es now` holds if a store in which there was `start` does what it is
asked for in these events, and there is `now` in it after them. -/
structure Remembers (memory : Memory) (start : Params) (es : List ParamEvent) (now : Params) :
    Prop where
  /-- There is what the last changes have left. -/
  now_eq : ∀ name : String, now[name]? = ParamEvent.last memory name start[name]? es
  /-- What is found is what the last change before has left. -/
  found_eq : ∀ before name value after, es = before ++ .found memory.store name value :: after →
    value = ParamEvent.last memory name start[name]? before

namespace Remembers

variable {memory : Memory} {start now : Params} {es : List ParamEvent}

lemma nil (memory : Memory) (start : Params) : Remembers memory start [] start where
  now_eq _ := rfl
  found_eq := by simp

/-- One event more. -/
lemma concat (h : Remembers memory start es now) {e : ParamEvent} {next : Params}
    (hnext : ∀ name : String, next[name]? = (e.change? memory name).getD now[name]?)
    (hfound : ∀ name value, e = .found memory.store name value → value = now[name]?) :
    Remembers memory start (es ++ [e]) next where
  now_eq name := by rw [hnext, h.now_eq, ParamEvent.last_concat]
  found_eq := by
    intro before name value after hsplit
    -- The lookup is the event that is new, or one of those before.
    obtain rfl | ⟨after', last, rfl⟩ := after.eq_nil_or_concat
    · obtain ⟨rfl, he⟩ := List.append_inj' hsplit rfl
      rw [hfound name value (List.singleton_inj.1 he), h.now_eq]
    · rw [List.concat_eq_append, ← List.cons_append, ← List.append_assoc] at hsplit
      obtain ⟨hes, -⟩ := List.append_inj' hsplit rfl
      exact h.found_eq before name value after' hes

end Remembers

/-! ## Hosts with stores -/

variable {σ : Type}

/-- A host that keeps its parameters in stores: a store changes when other parameters are put into
it, and at no other time. -/
structure Host.HasStores (σ : Type) [Host σ] : Prop where
  params_setParams : ∀ memory params store (s : σ),
    Host.params store (Host.setParams memory params s) =
      if store = memory.store then params else Host.params store s
  params_write : ∀ text store (s : σ),
    Host.params store (stateAfter (Host.write text s)) = Host.params store s
  params_setMime : ∀ mime store (s : σ),
    Host.params store (stateAfter (Host.setMime mime s)) = Host.params store s
  params_dispatch : ∀ path store (s : σ),
    Host.params store (stateAfter (Host.dispatch path s)) = Host.params store s

/-- `Host.Tells P` holds if whatever `P` says of the events so far and of the host, it says again
after whatever is done next. -/
structure Host.Tells [Host σ] (P : List ParamEvent → σ → Prop) : Prop where
  write : ∀ {es s}, P es s → ∀ text, P es (stateAfter (Host.write text s))
  setMime : ∀ {es s}, P es s → ∀ mime, P es (stateAfter (Host.setMime mime s))
  dispatch : ∀ {es s}, P es s → ∀ path, P es (stateAfter (Host.dispatch path s))
  found : ∀ {es s}, P es s → ∀ store name,
    P (es ++ [.found store name (Host.get? store name s)]) s
  put : ∀ {es s}, P es s → ∀ memory name value,
    P (es ++ [.put memory name value]) (Host.put memory name value s)
  erase : ∀ {es s}, P es s → ∀ memory name,
    P (es ++ [.erase memory name]) (Host.erase memory name s)

lemma Memory.store_inj {a b : Memory} : a.store = b.store ↔ a = b := by
  cases a <;> cases b <;> simp [store]

/-- A store goes on to do what it is asked for. -/
lemma Host.HasStores.tells [Host σ] (h : Host.HasStores σ) (memory : Memory) (start : Params)
    (earlier : List ParamEvent) :
    Host.Tells fun es (s : σ) =>
      Remembers memory start (earlier ++ es) (Host.params memory.store s) where
  write hs text := by rwa [h.params_write]
  setMime hs mime := by rwa [h.params_setMime]
  dispatch hs path := by rwa [h.params_dispatch]
  found := by
    intro es s hs store name
    rw [← List.append_assoc]
    refine hs.concat (fun n => rfl) fun n value he => ?_
    obtain ⟨rfl, rfl, rfl⟩ := ParamEvent.found.inj he
    rfl
  put := by
    intro es s hs changed name value
    rw [← List.append_assoc]
    refine hs.concat (fun n => ?_) fun n v he => by cases he
    rw [Host.put, h.params_setParams, ParamEvent.change?]
    by_cases hmemory : changed = memory
    · subst hmemory
      by_cases hname : name = n <;> simp [Std.ExtTreeMap.getElem?_insert, hname]
    · rw [if_neg fun hstore => hmemory (Memory.store_inj.1 hstore).symm,
        if_neg fun hboth => hmemory hboth.1]
      rfl
  erase := by
    intro es s hs changed name
    rw [← List.append_assoc]
    refine hs.concat (fun n => ?_) fun n v he => by cases he
    rw [Host.erase, h.params_setParams, ParamEvent.change?]
    by_cases hmemory : changed = memory
    · subst hmemory
      by_cases hname : name = n <;> simp [Std.ExtTreeMap.getElem?_erase, hname]
    · rw [if_neg fun hstore => hmemory (Memory.store_inj.1 hstore).symm,
        if_neg fun hboth => hmemory hboth.1]
      rfl

/-! ## Traced runs -/

/-- A host, with what has happened to its parameters. -/
structure Traced (σ : Type) where
  /-- The host. -/
  host : σ
  /-- What has happened, in order. -/
  events : List ParamEvent

namespace Traced

/-- Does what is nothing to the parameters. -/
def pass {ε : Type} (action : EStateM ε σ Unit) : EStateM ε (Traced σ) Unit := fun t =>
  match action t.host with
  | .ok _ host => .ok () ⟨host, t.events⟩
  | .error e host => .error e ⟨host, t.events⟩

instance [Host σ] : Host (Traced σ) where
  write text := pass (Host.write text)
  params store t := Host.params store t.host
  setParams memory params t := ⟨Host.setParams memory params t.host, t.events⟩
  setMime mime := pass (Host.setMime mime)
  dispatch path := pass (Host.dispatch path)

/-- A traced host is the host that it is without, and what is told of the host is told of the
events. -/
structure Shows (P : List ParamEvent → σ → Prop) (s : σ) (t : Traced σ) : Prop where
  host_eq : t.host = s
  holds : P t.events s

lemma agrees_pass {ε : Type} {P : List ParamEvent → σ → Prop} {action : EStateM ε σ Unit}
    (h : ∀ {es s}, P es s → P es (stateAfter (action s))) :
    Agrees (Shows P) (fun _ => False) action (pass action) := by
  rintro _ ⟨s, es⟩ ⟨rfl, hholds⟩
  have hnext := h hholds
  unfold pass
  dsimp only at hnext ⊢
  generalize action s = r at hnext ⊢
  cases r with
  | ok _ s' => exact .ok () ⟨rfl, hnext⟩
  | error e s' => exact .error e ⟨rfl, hnext⟩

variable [Host σ]

/-- Sets the parameter of a name, and writes it down. -/
def put (memory : Memory) (name value : String) (t : Traced σ) : Traced σ :=
  ⟨Host.put memory name value t.host, t.events ++ [.put memory name value]⟩

/-- Removes the parameter of a name, and writes it down. -/
def erase (memory : Memory) (name : String) (t : Traced σ) : Traced σ :=
  ⟨Host.erase memory name t.host, t.events ++ [.erase memory name]⟩

/-- Looks the parameter of a name up, and writes down what is found. -/
def lookUp (store : Store) (name : String) :
    EStateM RunError (Desk (Traced σ)) (Option String) := fun
  | ⟨values, t⟩ =>
    let value := Host.get? store name t.host
    .ok value ⟨values, t.host, t.events ++ [.found store name value]⟩

end Traced

variable [Host σ]

/-- What a function does, with what it does to the parameters written down. -/
def Builtin.trace (f : Builtin) : EStateM RunError (Desk (Traced σ)) Unit :=
  match f with
  | getParam store => do
    let default ← Desk.pop f.element
    let name ← Desk.pop f.element
    let found ← Traced.lookUp store name.text
    Desk.push (found.elim default .string)
  | setParam memory => do
    let name ← Desk.pop f.element
    let value ← Desk.pop f.element
    Desk.modifyHost (Traced.put memory name.text value.text)
  | deleteParam memory => do
    let name ← Desk.pop f.element
    Desk.modifyHost (Traced.erase memory name.text)
  | sine | formatDecimal | duplicate | swap | setMimeType | dispatch => f.run

/-- What an element does in an echo tag, with what it does to the parameters written down. -/
def Scope.trace (scope : Scope) (element : Element) : EStateM RunError (Desk (Traced σ)) Unit :=
  match element with
  | .function name =>
    match Builtin.ofName? name with
    | some f => f.trace
    | none => throw (.unknownFunction name)
  | .number _ | .string _ | .variable _ | .operator _ => scope.evaluate element

mutual

/-- Runs a node in a scope, with what happens to the parameters written down. -/
def Node.trace (limit : Nat) (scope : Scope) : Node → EStateM Stop (Traced σ) Unit
  | .text s => Scope.write s
  | .echo elements => do
    let values ← Scope.ofDesk (elements.forM scope.trace)
    values.forM fun v => Scope.write v.text
  | .loop header body => scope.loop limit header fun inner => Document.trace limit inner body

/-- Runs nodes one after the other in a scope, with what happens to the parameters written down. -/
def Document.trace (limit : Nat) (scope : Scope) : List Node → EStateM Stop (Traced σ) Unit
  | [] => pure ()
  | node :: rest => do
    node.trace limit scope
    Document.trace limit scope rest

end

/-- What happens to the parameters of a host when a document runs, each of its loops for at most
`limit` rounds. -/
def Document.paramEvents (limit : Nat) (document : Document) (host : σ) : List ParamEvent :=
  (stateAfter (Document.trace limit (Bindings.scope []) document ⟨host, []⟩)).events

/-! ## Traced runs are runs -/

namespace Traced

variable {P : List ParamEvent → σ → Prop} (h : Host.Tells P)
include h

lemma agrees_lookUp (store : Store) (name : String) :
    DeskAgrees (Shows P) (fun _ => False) (Desk.readHost (Host.get? store name))
      (lookUp store name) := by
  rintro ⟨values, s⟩ ⟨_, t⟩ ⟨rfl, hshows⟩
  dsimp only at hshows
  obtain ⟨rfl, hholds⟩ := hshows
  exact .ok _ ⟨rfl, rfl, h.found hholds store name⟩

/-- A function does what it does untraced. -/
lemma agrees_builtin (f : Builtin) :
    DeskAgrees (Shows P) (fun _ => False) f.run f.trace := by
  cases f with
  | sine | formatDecimal | duplicate | swap => exact .run_of_onValues rfl
  | setMimeType =>
    refine (DeskAgrees.pop _).bind fun mime => DeskAgrees.askHost (agrees_pass fun hs => ?_)
    exact h.setMime hs _
  | dispatch =>
    refine (DeskAgrees.pop _).bind fun path => DeskAgrees.askHost (agrees_pass fun hs => ?_)
    exact h.dispatch hs _
  | getParam store =>
    refine (DeskAgrees.pop _).bind fun default => (DeskAgrees.pop _).bind fun name => ?_
    exact (agrees_lookUp h store _).bind fun found => DeskAgrees.push _
  | setParam memory =>
    refine (DeskAgrees.pop _).bind fun name => (DeskAgrees.pop _).bind fun value => ?_
    refine DeskAgrees.modifyHost ?_
    rintro _ ⟨s, es⟩ ⟨rfl, hholds⟩
    exact ⟨rfl, h.put hholds memory _ _⟩
  | deleteParam memory =>
    refine (DeskAgrees.pop _).bind fun name => DeskAgrees.modifyHost ?_
    rintro _ ⟨s, es⟩ ⟨rfl, hholds⟩
    exact ⟨rfl, h.erase hholds memory _⟩

lemma agrees_element (scope : Scope) (element : Element) :
    DeskAgrees (Shows P) (fun _ => False) (scope.evaluate element) (scope.trace element) := by
  cases element with
  | function name =>
    simp only [Scope.evaluate, Scope.trace, Builtin.call]
    cases Builtin.ofName? name with
    | some f => exact agrees_builtin h f
    | none => exact .throw _
  | number | string | «variable» | operator => exact .evaluate_of_ne_function scope (by simp)

lemma agrees_write (text : String) :
    RunAgrees (Shows P) (fun _ => False) (Scope.write text) (Scope.write text) :=
  .write (agrees_pass fun hs => h.write hs text)

end Traced

variable {P : List ParamEvent → σ → Prop}

mutual

theorem Node.agrees_trace (h : Host.Tells P) (limit : Nat) (scope : Scope) : (node : Node) →
    RunAgrees (Traced.Shows P) (fun _ => False) (node.runIn limit scope) (node.trace limit scope)
  | .text s => Traced.agrees_write h s
  | .echo elements => by
    refine Agrees.bind ?_ fun values => .forM fun v => Traced.agrees_write h v.text
    exact RunAgrees.ofDesk (.forM (Traced.agrees_element h scope))
  | .loop _ body => .loop fun inner => Document.agrees_trace h limit inner body

theorem Document.agrees_trace (h : Host.Tells P) (limit : Nat) (scope : Scope) :
    (nodes : List Node) →
    RunAgrees (Traced.Shows P) (fun _ => False) (Document.runIn limit scope nodes)
      (Document.trace limit scope nodes)
  | [] => .pure ()
  | node :: rest =>
    (Node.agrees_trace h limit scope node).bind fun _ => Document.agrees_trace h limit scope rest

end

/-- What is told of a host before a run is told after it, of what has happened to the parameters in
that run. -/
theorem Document.tells (h : Host.Tells P) {host : σ} (hstart : P [] host) (limit : Nat)
    (document : Document) :
    P (document.paramEvents limit host) (stateAfter (document.execute limit host)) := by
  have hends := Document.agrees_trace h limit (Bindings.scope []) document host ⟨host, []⟩
    ⟨rfl, hstart⟩
  rw [← execute_eq_runIn] at hends
  rw [paramEvents]
  generalize document.execute limit host = r,
    Document.trace limit (Bindings.scope []) document (⟨host, []⟩ : Traced σ) = r' at hends
  cases hends with
  | ok _ h =>
    obtain ⟨rfl, hholds⟩ := h
    exact hholds
  | error e h =>
    obtain ⟨rfl, hholds⟩ := h
    exact hholds
  | excused h => exact absurd h (Stop.not_isRefusal _)

end PageScript
