import PageScript.Proofs.Host.Sending
import PageScript.Proofs.Run.ParamEvents
/-!
# Exchanges meet in sessions only

A server takes the steps of its exchanges in any order.  To an exchange it makes no difference which
steps are taken in those that do not share its session: they may as well be left out.  The steps of
those that do are felt in the persistent parameters alone, which are to the exchange as if they
changed by themselves from one of its steps to the next.  And whoever of them looks a persistent
parameter up finds what any of them has last set there, unless one has removed it since.

A step does what it would do if its exchange stood alone, and it leaves the exchanges that do not
share its session as they are.  All that is said about runs follows from this by induction on the
steps.
-/

namespace PageScript

namespace Exchange

variable {limit : Nat} {x : Exchange}

/-! ## Parameters -/

lemma params_onResponse {ε α : Type} (action : EStateM ε Response α) (store : Store)
    (x : Exchange) :
    Host.params store (stateAfter (onResponse action x)) = Host.params store x := by
  unfold onResponse
  dsimp only
  cases action x.response <;> cases store <;> rfl

lemma params_dispatch (path : String) (store : Store) (x : Exchange) :
    Host.params store (stateAfter (dispatch path x)) = Host.params store x := by
  unfold dispatch
  cases x.dispatcher with
  | none => rfl
  | some dispatcher =>
    dsimp only
    cases dispatcher x.dispatched path <;> cases store <;> rfl

lemma hasStores : Host.HasStores Exchange where
  params_setParams memory params store x := by
    cases memory <;> cases store <;> rfl
  params_write text := params_onResponse _
  params_setMime mime := params_onResponse _
  params_dispatch := params_dispatch

/-- What happens to the parameters of an exchange in a step. -/
def paramEvents (limit : Nat) (x : Exchange) : Step → List ParamEvent
  | .render page =>
    match Document.read page.toList with
    | .error _ => []
    | .ok document => document.paramEvents limit x
  | .get store name => [.found store name (Host.get? store name x)]
  | .put memory name value => [.put memory name value]
  | .erase memory name => [.erase memory name]
  | .write _ | .setMime _ | .setEncoding _ | .setStatus _ | .setReason _ | .setLength _
  | .addCookie _ | .names | .sessionId | .dispatch _ => []

/-- A store of an exchange does what it is asked for in a step. -/
theorem remembers_take {memory : Memory} {start : Params} {es : List ParamEvent}
    (h : Remembers memory start es (Host.params memory.store x)) (limit : Nat) (step : Step) :
    Remembers memory start (es ++ x.paramEvents limit step)
      (Host.params memory.store (x.take limit step).2) := by
  have htells := hasStores.tells memory start es
  have hstart : Remembers memory start (es ++ []) (Host.params memory.store x) := by
    rwa [List.append_nil]
  have ofResponse {ε : Type} (wrap : ε → Failure) (action : EStateM ε Response Unit) :
      Remembers memory start (es ++ [])
        (Host.params memory.store (act wrap (onResponse action) x).2) := by
    rwa [act_snd, params_onResponse]
  cases step with
  | render page =>
    rw [take, act_snd, paramEvents, render]
    cases Document.read page.toList with
    | error e => exact hstart
    | ok document =>
      have hrun := document.tells htells hstart limit
      dsimp only
      generalize document.execute limit x = r at hrun ⊢
      cases r <;> exact hrun
  | get store name => exact htells.found hstart store name
  | put memory' name value => exact htells.put hstart memory' name value
  | erase memory' name => exact htells.erase hstart memory' name
  | write | setMime | setEncoding | setStatus | setReason | setLength => exact ofResponse _ _
  | dispatch path =>
    rw [take, act_snd, params_dispatch]
    exact hstart
  | addCookie | names | sessionId => cases memory <;> exact hstart

/-- Takes one step after the other, each with the persistent parameters that are there before it,
and gives the answers. -/
def replay (limit : Nat) : List (Params × Step) → Exchange → List Answer × Exchange
  | [], x => ([], x)
  | (session, step) :: rest, x =>
    let taken := take limit step { x with session }
    (taken.1 :: (replay limit rest taken.2).1, (replay limit rest taken.2).2)

end Exchange

namespace Server

variable {i j k : Nat} {s t : Server} {x y : Exchange}

/-! ## Exchanges as they stand -/

/-- The name of the session of an exchange, if it names one. -/
def sessionName? (s : Server) (i : Nat) : Option String := s.exchanges[i]?.bind Prod.snd

/-- An exchange as it stands, if there is one of that number. -/
def view? (s : Server) (i : Nat) : Option Exchange :=
  s.exchanges[i]?.map fun entry => s.current entry.1 entry.2

/-- Whether two exchanges are one, or name the same session. -/
def shares (s : Server) (i j : Nat) : Bool :=
  i == j || ((s.sessionName? i).isSome && s.sessionName? i == s.sessionName? j)

lemma shares_iff :
    s.shares i j = true ↔
      i = j ∨ ∃ name, s.sessionName? i = some name ∧ s.sessionName? j = some name := by
  rw [shares, Bool.or_eq_true, beq_iff_eq, Bool.and_eq_true, beq_iff_eq, Option.isSome_iff_exists]
  constructor
  · rintro (rfl | ⟨⟨name, hname⟩, heq⟩)
    · exact .inl rfl
    · exact .inr ⟨name, hname, heq ▸ hname⟩
  · rintro (rfl | ⟨name, hi, hj⟩)
    · exact .inl rfl
    · exact .inr ⟨⟨name, hi⟩, hi.trans hj.symm⟩

lemma shares_self (s : Server) (i : Nat) : s.shares i i = true := shares_iff.2 (.inl rfl)

lemma shares_trans (hij : s.shares i j = true) (hjk : s.shares j k = true) :
    s.shares i k = true := by
  rw [shares_iff] at hij hjk ⊢
  obtain rfl | ⟨name, hi, hj⟩ := hij
  · exact hjk
  · obtain rfl | ⟨name', hj', hk⟩ := hjk
    · exact .inr ⟨name, hi, hj⟩
    · obtain rfl : name = name' := Option.some.inj (hj.symm.trans hj')
      exact .inr ⟨name, hi, hk⟩

lemma shares_symm (h : s.shares i j = true) : s.shares j i = true := by
  rw [shares_iff] at h ⊢
  exact h.imp Eq.symm fun ⟨name, hi, hj⟩ => ⟨name, hj, hi⟩

/-- The entry behind an exchange that stands. -/
lemma exists_entry (h : s.view? i = some x) :
    ∃ stored, s.exchanges[i]? = some (stored, s.sessionName? i) ∧
      s.current stored (s.sessionName? i) = x := by
  obtain ⟨⟨stored, session⟩, hentry, rfl⟩ := Option.map_eq_some_iff.1 h
  have hname : s.sessionName? i = session := by simp [sessionName?, hentry]
  exact ⟨stored, hname ▸ hentry, by rw [hname]⟩

lemma exists_view (h : s.sessionName? i ≠ none) : ∃ x, s.view? i = some x := by
  unfold sessionName? at h
  cases hentry : s.exchanges[i]? with
  | none => simp [hentry] at h
  | some entry => exact ⟨_, by rw [view?, hentry]; rfl⟩

/-- Those who share a session have the same persistent parameters. -/
lemma session_eq (h : s.shares i j = true) (hi : s.view? i = some x) (hj : s.view? j = some y) :
    x.session = y.session := by
  obtain rfl | ⟨name, hname, hname'⟩ := shares_iff.1 h
  · rw [Option.some.inj (hi.symm.trans hj)]
  · obtain ⟨stored, -, rfl⟩ := exists_entry hi
    obtain ⟨stored', -, rfl⟩ := exists_entry hj
    rw [hname, hname']
    rfl

/-- Where one of those who share a session stands, so does the other. -/
lemma exists_view_of_shares (h : s.shares i j = true) (hi : s.view? i = some x) :
    ∃ y, s.view? j = some y := by
  obtain rfl | ⟨name, -, hname⟩ := shares_iff.1 h
  · exact ⟨x, hi⟩
  · exact exists_view (by simp [hname])

/-! ## One step -/

lemma take_of_view?_eq_none (h : s.view? j = none) (limit : Nat) (step : Step) :
    s.take limit j step = (.done, s) := by
  rw [view?, Option.map_eq_none_iff] at h
  rw [take, h]

/-- A step does to its exchange what it would do if that stood alone. -/
lemma take_fst (h : s.view? j = some x) (limit : Nat) (step : Step) :
    (s.take limit j step).1 = (x.take limit step).1 := by
  obtain ⟨stored, hentry, rfl⟩ := exists_entry h
  rw [take, hentry]

lemma view?_take_self (h : s.view? j = some x) (limit : Nat) (step : Step) :
    (s.take limit j step).2.view? j = some (x.take limit step).2 := by
  obtain ⟨stored, hentry, rfl⟩ := exists_entry h
  have hlt : j < s.exchanges.length := (List.getElem?_eq_some_iff.1 hentry).1
  rw [take, hentry, view?]
  dsimp only
  rw [List.getElem?_set_self hlt, Option.map_some]
  cases s.sessionName? j with
  | none => rfl
  | some name => simp [current]

lemma getElem?_exchanges_take (hij : i ≠ j) (limit : Nat) (step : Step) :
    (s.take limit j step).2.exchanges[i]? = s.exchanges[i]? := by
  unfold take
  split
  · rfl
  · exact List.getElem?_set_ne (Ne.symm hij)

/-- A step changes the session of its exchange, and no other. -/
lemma sessions_take (h : s.view? j = some x) (limit : Nat) (step : Step) :
    (s.take limit j step).2.sessions =
      (s.sessionName? j).elim s.sessions
        fun name => s.sessions.insert name (x.take limit step).2.session := by
  obtain ⟨stored, hentry, rfl⟩ := exists_entry h
  rw [take, hentry]

/-- No step changes who names which session. -/
lemma sessionName?_take (limit : Nat) (step : Step) :
    (s.take limit j step).2.sessionName? i = s.sessionName? i := by
  by_cases hij : i = j
  · subst hij
    unfold take
    split
    · rfl
    · next stored session hentry =>
      have hlt : i < s.exchanges.length := (List.getElem?_eq_some_iff.1 hentry).1
      dsimp only [sessionName?]
      rw [List.getElem?_set_self hlt, hentry]
      rfl
  · rw [sessionName?, getElem?_exchanges_take hij, sessionName?]

lemma shares_take (limit : Nat) (step : Step) :
    (s.take limit j step).2.shares i k = s.shares i k := by
  rw [shares, shares, sessionName?_take, sessionName?_take]

/-- Another exchange that shares the session keeps all but its persistent parameters, which are
those that the step leaves. -/
lemma view?_take_of_shares (hij : i ≠ j) (h : s.shares i j = true) (hi : s.view? i = some x)
    (hj : s.view? j = some y) (limit : Nat) (step : Step) :
    (s.take limit j step).2.view? i = some { x with session := (y.take limit step).2.session } := by
  obtain ⟨name, hname, hname'⟩ := (shares_iff.1 h).resolve_left hij
  obtain ⟨stored, hentry, rfl⟩ := exists_entry hi
  rw [view?, getElem?_exchanges_take hij, hentry, Option.map_some, hname]
  simp [current, sessions_take hj, hname']

/-- A step leaves those that do not share the session of its exchange as they are. -/
lemma view?_take_of_not_shares (h : s.shares i j = false) (limit : Nat) (step : Step) :
    (s.take limit j step).2.view? i = s.view? i := by
  have hij : i ≠ j := by
    rintro rfl
    rw [shares_self] at h
    cases h
  cases hj : s.view? j with
  | none => rw [take_of_view?_eq_none hj]
  | some y =>
    rw [view?, getElem?_exchanges_take hij, view?]
    cases hentry : s.exchanges[i]? with
    | none => rfl
    | some entry =>
      obtain ⟨stored, session⟩ := entry
      have hname : s.sessionName? i = session := by rw [sessionName?, hentry]; rfl
      cases session with
      | none => rfl
      | some name =>
        -- The session that the step puts back, if it names one, has another name.
        have hne (name' : String) (hname' : s.sessionName? j = some name') : name' ≠ name := by
          rintro rfl
          rw [shares_iff.2 (.inr ⟨name', hname, hname'⟩)] at h
          cases h
        simp only [Option.map_some, current, sessions_take hj]
        cases hname' : s.sessionName? j with
        | none => rfl
        | some name' => simp [Std.ExtTreeMap.getD_insert, hne name' hname']

/-! ## Sequences of steps -/

/-- Takes one step after the other, each in the exchange of its number. -/
def takeAll (limit : Nat) : List (Nat × Step) → Server → Server
  | [], s => s
  | (j, step) :: steps, s => takeAll limit steps (s.take limit j step).2

/-- What the steps of one exchange answer. -/
def answers (limit i : Nat) : List (Nat × Step) → Server → List Answer
  | [], _ => []
  | (j, step) :: steps, s =>
    (if j = i then [(s.take limit j step).1] else []) ++
      answers limit i steps (s.take limit j step).2

/-- The steps of one exchange, each with the persistent parameters that are there before it. -/
def ownSteps (limit i : Nat) : List (Nat × Step) → Server → List (Params × Step)
  | [], _ => []
  | (j, step) :: steps, s =>
    (if j = i then (s.view? j).toList.map fun x => (x.session, step) else []) ++
      ownSteps limit i steps (s.take limit j step).2

/-- What happens to the parameters of the exchanges that share the session of one of them. -/
def sharedEvents (limit i : Nat) : List (Nat × Step) → Server → List ParamEvent
  | [], _ => []
  | (j, step) :: steps, s =>
    (if s.shares i j then (s.view? j).elim [] fun x => x.paramEvents limit step else []) ++
      sharedEvents limit i steps (s.take limit j step).2

/-! ### Steps that may be left out -/

/-- Servers that one exchange and those that share its session cannot tell apart. -/
structure Alike (i : Nat) (s t : Server) : Prop where
  sessionName_eq : ∀ j, s.sessionName? j = t.sessionName? j
  view_eq : ∀ j, s.shares i j = true → s.view? j = t.view? j

namespace Alike

lemma refl (i : Nat) (s : Server) : Alike i s s := ⟨fun _ => rfl, fun _ _ => rfl⟩

lemma shares_eq (h : Alike i s t) : s.shares j k = t.shares j k := by
  rw [shares, shares, h.sessionName_eq, h.sessionName_eq]

/-- A step in an exchange that does not share the session may be left out. -/
lemma take_left (h : Alike i s t) (hj : s.shares i j = false) (limit : Nat) (step : Step) :
    Alike i (s.take limit j step).2 t where
  sessionName_eq k := (sessionName?_take limit step).trans (h.sessionName_eq k)
  view_eq := by
    intro k hk
    rw [shares_take] at hk
    -- Who shares the session of `i` does not share that of `j`, or `i` would as well.
    have hkj : s.shares k j = false := by
      rw [Bool.eq_false_iff]
      intro hkj
      rw [shares_trans hk hkj] at hj
      cases hj
    rw [view?_take_of_not_shares hkj, h.view_eq k hk]

/-- A step in an exchange that shares the session does the same to both. -/
lemma take (h : Alike i s t) (hj : s.shares i j = true) (limit : Nat) (step : Step) :
    (s.take limit j step).1 = (t.take limit j step).1 ∧
      Alike i (s.take limit j step).2 (t.take limit j step).2 := by
  have hviews := h.view_eq j hj
  cases hview : s.view? j with
  | none =>
    rw [take_of_view?_eq_none hview, take_of_view?_eq_none (hviews ▸ hview)]
    exact ⟨rfl, h⟩
  | some y =>
    have hview' : t.view? j = some y := hviews ▸ hview
    refine ⟨by rw [take_fst hview, take_fst hview'], ?_, ?_⟩
    · intro k
      rw [sessionName?_take, sessionName?_take, h.sessionName_eq]
    · intro k hk
      rw [shares_take] at hk
      have hkj : s.shares k j = true := shares_trans (shares_symm hk) hj
      by_cases hne : k = j
      · subst hne
        rw [view?_take_self hview, view?_take_self hview']
      · obtain ⟨x, hx⟩ := exists_view_of_shares (shares_symm hkj) hview
        rw [view?_take_of_shares hne hkj hx hview,
          view?_take_of_shares hne (h.shares_eq ▸ hkj) (h.view_eq k hk ▸ hx) hview']

/-- The steps in exchanges that do not share the session may be left out. -/
lemma takeAll (h : Alike i s t) (limit : Nat) (steps : List (Nat × Step)) :
    answers limit i steps s = answers limit i (steps.filter fun e => s.shares i e.1) t ∧
      Alike i (Server.takeAll limit steps s)
        (Server.takeAll limit (steps.filter fun e => s.shares i e.1) t) := by
  induction steps generalizing s t with
  | nil => exact ⟨rfl, h⟩
  | cons e steps ih =>
    obtain ⟨j, step⟩ := e
    -- Which steps may be left out does not depend on those before them.
    have hfilter : (fun e : Nat × Step => (s.take limit j step).2.shares i e.1) =
        fun e => s.shares i e.1 := funext fun e => shares_take limit step
    cases hj : s.shares i j with
    | true =>
      rw [List.filter_cons_of_pos (by exact hj)]
      obtain ⟨hanswer, hnext⟩ := h.take hj limit step
      obtain ⟨hanswers, hlast⟩ := ih hnext
      rw [hfilter] at hanswers hlast
      exact ⟨by rw [answers, answers, hanswer, hanswers], hlast⟩
    | false =>
      rw [List.filter_cons_of_neg (by simp [hj])]
      have hne : j ≠ i := by
        rintro rfl
        rw [shares_self] at hj
        cases hj
      obtain ⟨hanswers, hlast⟩ := ih (h.take_left hj limit step)
      rw [hfilter] at hanswers hlast
      exact ⟨by rw [answers, if_neg hne, List.nil_append, hanswers], hlast⟩

end Alike

/-! ### Steps of others -/

/-- What an exchange answers, and what becomes of it, depends on the others through the persistent
parameters alone that are there before its own steps. -/
lemma replays (session : Params) (h : s.view? i = some { x with session }) (limit : Nat)
    (steps : List (Nat × Step)) :
    answers limit i steps s = (x.replay limit (ownSteps limit i steps s)).1 ∧
      ∃ session, (takeAll limit steps s).view? i =
        some { (x.replay limit (ownSteps limit i steps s)).2 with session } := by
  induction steps generalizing s x session with
  | nil => exact ⟨rfl, session, h⟩
  | cons e steps ih =>
    obtain ⟨j, step⟩ := e
    by_cases hij : i = j
    · subst hij
      obtain ⟨hanswers, hlast⟩ := ih _ (view?_take_self h limit step)
      rw [answers, ownSteps, if_pos rfl, if_pos rfl, h, take_fst h]
      exact ⟨congrArg _ hanswers, hlast⟩
    · -- A step of another changes the persistent parameters at most; `x` stands for the rest.
      have hnext : ∃ session, (s.take limit j step).2.view? i = some { x with session } := by
        cases hshares : s.shares i j with
        | true =>
          obtain ⟨y, hy⟩ := exists_view_of_shares hshares h
          exact ⟨_, view?_take_of_shares hij hshares h hy limit step⟩
        | false => exact ⟨session, (view?_take_of_not_shares hshares limit step).trans h⟩
      obtain ⟨session', hnext⟩ := hnext
      rw [answers, ownSteps, if_neg (Ne.symm hij), if_neg (Ne.symm hij)]
      exact ih session' hnext

/-- A session does what the exchanges that share it ask of it. -/
lemma remembers_takeAll {start : Params} {es : List ParamEvent} (h : s.view? i = some x)
    (hstart : Remembers .persistent start es x.session) (limit : Nat)
    (steps : List (Nat × Step)) :
    ∃ y, (takeAll limit steps s).view? i = some y ∧
      Remembers .persistent start (es ++ sharedEvents limit i steps s) y.session := by
  induction steps generalizing s x es with
  | nil => exact ⟨x, h, by rwa [sharedEvents, List.append_nil]⟩
  | cons e steps ih =>
    obtain ⟨j, step⟩ := e
    rw [sharedEvents, ← List.append_assoc]
    cases hshares : s.shares i j with
    | true =>
      obtain ⟨y, hy⟩ := exists_view_of_shares hshares h
      -- Whoever takes the step, it begins and ends with the persistent parameters of the session.
      have hstep : Remembers .persistent start (es ++ y.paramEvents limit step)
          (y.take limit step).2.session := by
        rw [session_eq hshares h hy] at hstart
        exact Exchange.remembers_take hstart limit step
      rw [if_pos rfl, hy, Option.elim_some]
      by_cases hij : i = j
      · subst hij
        exact ih (view?_take_self hy limit step) hstep
      · exact ih (view?_take_of_shares hij hshares h hy limit step) hstep
    | false =>
      rw [if_neg (by simp), List.append_nil]
      exact ih ((view?_take_of_not_shares hshares limit step).trans h) hstart

lemma shares_takeAll (limit : Nat) (steps : List (Nat × Step)) :
    (takeAll limit steps s).shares i k = s.shares i k := by
  induction steps generalizing s with
  | nil => rfl
  | cons e steps ih => rw [takeAll, ih, shares_take]

lemma sharedEvents_append (limit : Nat) (steps later : List (Nat × Step)) :
    sharedEvents limit i (steps ++ later) s =
      sharedEvents limit i steps s ++ sharedEvents limit i later (takeAll limit steps s) := by
  induction steps generalizing s with
  | nil => rfl
  | cons e steps ih =>
    rw [List.cons_append, sharedEvents, sharedEvents, takeAll, ih, List.append_assoc]

/-- Who shares the session and looks a parameter up is answered what is found in the event of it. -/
lemma exists_found (h : s.view? i = some x) (hj : s.shares i j = true) (limit : Nat)
    (before after : List (Nat × Step)) (store : Store) (name : String) :
    ∃ value,
      ((takeAll limit before s).take limit j (.get store name)).1 = .found value ∧
      sharedEvents limit i (before ++ (j, .get store name) :: after) s =
        sharedEvents limit i before s ++ .found store name value ::
          sharedEvents limit i after
            ((takeAll limit before s).take limit j (.get store name)).2 := by
  obtain ⟨x', hx', -⟩ := remembers_takeAll h (.nil .persistent x.session) limit before
  have hshares : (takeAll limit before s).shares i j = true := by rw [shares_takeAll, hj]
  obtain ⟨y, hy⟩ := exists_view_of_shares hshares hx'
  refine ⟨Host.get? store name y, take_fst hy limit _, ?_⟩
  rw [sharedEvents_append, sharedEvents, if_pos hshares, hy]
  rfl

/-- The steps of exchanges that do not share the session of an exchange may be left out: it answers
the same and ends as the same, its response, its parameters and its session included.  The other
steps are felt in its session alone: it answers, and ends but for its session, as if it stood alone
and found before each of its steps the persistent parameters that it does find.  And in the session
there is under each name what has last been set there, unless it has been removed since, and each of
those who share it finds that: when one of them looks a parameter up, the answer is what is found in
the event of this step, which stands after those of the steps before it. -/
theorem meets_only_in_session (limit i : Nat) (steps : List (Nat × Step)) (s : Server) :
    (answers limit i (steps.filter fun e => s.shares i e.1) s = answers limit i steps s ∧
      (takeAll limit (steps.filter fun e => s.shares i e.1) s).view? i =
        (takeAll limit steps s).view? i) ∧
    ∀ x, s.view? i = some x →
      ∃ y, (takeAll limit steps s).view? i = some y ∧
        answers limit i steps s = (x.replay limit (ownSteps limit i steps s)).1 ∧
        y = { (x.replay limit (ownSteps limit i steps s)).2 with session := y.session } ∧
        Remembers .persistent x.session (sharedEvents limit i steps s) y.session ∧
        ∀ before j store name after, steps = before ++ (j, .get store name) :: after →
          s.shares i j = true →
          ∃ value,
            ((takeAll limit before s).take limit j (.get store name)).1 = .found value ∧
            sharedEvents limit i steps s =
              sharedEvents limit i before s ++ .found store name value ::
                sharedEvents limit i after
                  ((takeAll limit before s).take limit j (.get store name)).2 := by
  constructor
  · obtain ⟨hanswers, hlast⟩ := (Alike.refl i s).takeAll limit steps
    exact ⟨hanswers.symm, (hlast.view_eq i (shares_self _ i)).symm⟩
  · intro x h
    obtain ⟨hanswers, session, hlast⟩ := replays x.session h limit steps
    obtain ⟨y, hy, hremembers⟩ := remembers_takeAll h (.nil .persistent x.session) limit steps
    obtain rfl := Option.some.inj (hy.symm.trans hlast)
    refine ⟨_, hy, hanswers, rfl, hremembers, ?_⟩
    rintro before j store name after rfl hj
    exact exists_found h hj limit before after store name

/-- What one exchange sets, another that shares its session finds. -/
example :
    let alone := Exchange.ofSink .unbounded ∅ ∅ ∅
    answers 0 1 [(0, .put .persistent "k" "v"), (1, .get .persistent "k")]
      (((ofSessions ∅).add alone (some "a")).add alone (some "a")) = [.found (some "v")] := by
  decide

end Server

end PageScript
