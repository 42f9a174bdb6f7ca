import PageScript.Server
import PageScript.Proofs.Response.Sending
import PageScript.Proofs.Run.Requests
/-!
# What an exchange sends

Whatever the steps of an exchange are, all that they do to its response are settings, cookies and
writes, one after another.  Those of a page are the requests that its run makes.  So the record of
what happens to the response is known, and tells what has been sent.
-/

namespace PageScript

/-! ## Several acts -/

namespace Response

/-- What happens when several things are done to a response, and the response after them. -/
def performAll (r : Response) : List Act → List Event × Response
  | [] => ([], r)
  | act :: acts =>
    ((r.perform act).1 ++ (performAll (r.perform act).2 acts).1,
      (performAll (r.perform act).2 acts).2)

lemma performAll_concat (r : Response) (acts : List Act) (act : Act) :
    (r.performAll (acts ++ [act])).2 = ((r.performAll acts).2.perform act).2 := by
  induction acts generalizing r with
  | nil => rfl
  | cons first acts ih => exact ih (r.perform first).2

lemma perform_set_snd (r : Response) (s : Setting) :
    (r.perform (.set s)).2 = stateAfter (set s r) := by
  rw [perform]
  cases set s r <;> rfl

lemma perform_write_snd (r : Response) (data : ByteArray) :
    (r.perform (.write data)).2 = stateAfter (write data r) := by
  simp only [perform, write, bind, EStateM.bind]
  cases commit r with
  | error e s => rfl
  | ok _ s =>
    dsimp only
    cases send data s <;> rfl

end Response

/-- However much is done to a response, its record goes on to tell what it has sent. -/
theorem Sends.performAll {es : List Event} {r : Response} (h : Sends es r) (acts : List Act) :
    Sends (es ++ (r.performAll acts).1) (r.performAll acts).2 := by
  induction acts generalizing es r with
  | nil => simpa [Response.performAll] using h
  | cons act acts ih =>
    rw [Response.performAll, ← List.append_assoc]
    exact ih (h.perform act)

/-! ## The acts of a step -/

/-- What a request does to the response. -/
def Request.act? : Request → Option Act
  | write text => some (.write text.toUTF8)
  | setMime mime => some (.set (.mime mime))
  | setParams .. | dispatch _ => none

/-- The step that makes a setting of the header. -/
def Step.ofSetting : Setting → Step
  | .encoding s => .setEncoding s
  | .status n => .setStatus n
  | .reason s => .setReason s
  | .mime s => .setMime s
  | .length n => .setLength n

namespace Exchange

/-- What a step does to the response of an exchange. -/
def acts (limit : Nat) (x : Exchange) : Step → List Act
  | .render page =>
    match Document.read page.toList with
    | .error _ => []
    | .ok document => (document.requests limit x).filterMap Request.act?
  | .write data => [.write data]
  | .setMime mime => [.set (.mime mime)]
  | .setEncoding encoding => [.set (.encoding encoding)]
  | .setStatus status => [.set (.status status)]
  | .setReason reason => [.set (.reason reason)]
  | .setLength length => [.set (.length length)]
  | .addCookie cookie => [.addCookie cookie]
  | .get .. | .put .. | .erase .. | .names | .sessionId | .dispatch _ => []

lemma stateAfter_onResponse {ε α : Type} (action : EStateM ε Response α) (x : Exchange) :
    (stateAfter (onResponse action x)).response = stateAfter (action x.response) := by
  unfold onResponse
  dsimp only
  cases action x.response <;> rfl

lemma act_snd {ε : Type} (wrap : ε → Failure) (action : EStateM ε Exchange Unit) (x : Exchange) :
    (act wrap action x).2 = stateAfter (action x) := by
  unfold act
  cases action x <;> rfl

lemma stateAfter_dispatch (path : String) (x : Exchange) :
    (stateAfter (dispatch path x)).response = x.response := by
  unfold dispatch
  cases x.dispatcher with
  | none => rfl
  | some dispatcher =>
    dsimp only
    cases dispatcher x.dispatched path <;> rfl

lemma setParams_response (memory : Memory) (params : Params) (x : Exchange) :
    (Host.setParams memory params x).response = x.response := by
  cases memory <;> rfl

/-- What a run does to the response is what its requests do. -/
lemma follows (r : Response) : Host.Follows fun (rs : List Request) (x : Exchange) =>
    x.response = (r.performAll (rs.filterMap Request.act?)).2 where
  write := by
    intro rs x h text
    rw [List.filterMap_append]
    refine (stateAfter_onResponse _ x).trans ?_
    rw [← Response.perform_write_snd, h]
    exact (Response.performAll_concat ..).symm
  setParams := by
    intro rs x h memory params
    rw [List.filterMap_append, setParams_response, h]
    exact congrArg (fun acts => (r.performAll acts).2) (List.append_nil _).symm
  setMime := by
    intro rs x h mime
    rw [List.filterMap_append]
    refine (stateAfter_onResponse _ x).trans ?_
    rw [show Response.setMime mime = Response.set (.mime mime) from rfl,
      ← Response.perform_set_snd, h]
    exact (Response.performAll_concat ..).symm
  dispatch := by
    intro rs x h path
    rw [List.filterMap_append]
    refine (stateAfter_dispatch path x).trans (h.trans ?_)
    exact congrArg (fun acts => (r.performAll acts).2) (List.append_nil _).symm

/-- Rendering a page does to the response what the requests of its document do. -/
lemma render_response (limit : Nat) (page : List Char) (x : Exchange) :
    (stateAfter (render limit page x)).response =
      (x.response.performAll
        (match Document.read page with
          | .error _ => []
          | .ok document => (document.requests limit x).filterMap Request.act?)).2 := by
  unfold render
  cases Document.read page with
  | error e => rfl
  | ok document =>
    have hfollows := document.follows (follows x.response) rfl limit
    dsimp only
    rw [← hfollows]
    cases document.execute limit x <;> rfl

/-- What a step does to the response of an exchange are the acts of that step. -/
theorem take_response (limit : Nat) (step : Step) (x : Exchange) :
    (x.take limit step).2.response = (x.response.performAll (x.acts limit step)).2 := by
  have ofSetting (s : Setting) :
      (act .host (onResponse (Response.set s)) x).2.response =
        (x.response.performAll [.set s]).2 := by
    rw [act_snd, stateAfter_onResponse, ← Response.perform_set_snd]
    rfl
  cases step with
  | render page =>
    rw [take, act_snd, render_response]
    rfl
  | write data =>
    rw [take, act_snd, write, stateAfter_onResponse, ← Response.perform_write_snd]
    rfl
  | setMime mime => exact ofSetting (.mime mime)
  | setEncoding encoding => exact ofSetting (.encoding encoding)
  | setStatus status => exact ofSetting (.status status)
  | setReason reason => exact ofSetting (.reason reason)
  | setLength length => exact ofSetting (.length length)
  | addCookie cookie => rfl
  | put memory name value => exact setParams_response memory _ x
  | erase memory name => exact setParams_response memory _ x
  | dispatch path =>
    rw [take, act_snd, stateAfter_dispatch]
    rfl
  | get | names | sessionId => rfl

/-! ## Sequences of steps -/

/-- Takes one step after the other. -/
def takeAll (limit : Nat) : List Step → Exchange → Exchange
  | [], x => x
  | step :: steps, x => takeAll limit steps (x.take limit step).2

/-- What happens to the response of an exchange that takes these steps. -/
def record (limit : Nat) : List Step → Exchange → List Event
  | [], _ => []
  | step :: steps, x =>
    (x.response.performAll (x.acts limit step)).1 ++ record limit steps (x.take limit step).2

/-- Whatever the steps are, the record tells what has been sent. -/
theorem sends_record {es : List Event} {x : Exchange} (h : Sends es x.response) (limit : Nat)
    (steps : List Step) :
    Sends (es ++ x.record limit steps) (x.takeAll limit steps).response := by
  induction steps generalizing es x with
  | nil => simpa [record, takeAll] using h
  | cons step steps ih =>
    rw [record, takeAll, ← List.append_assoc]
    apply ih
    rw [take_response]
    exact h.performAll _

/-- Once the header has been sent, the steps that set it fail and change nothing. -/
lemma take_ofSetting {x : Exchange} (h : x.response.committed = true) (limit : Nat) (s : Setting) :
    x.take limit (.ofSetting s) = (.failed (.host .headerCommitted), x) := by
  have hset :
      act .host (onResponse (Response.set s)) x = (.failed (.host .headerCommitted), x) := by
    simp only [act, onResponse, Response.set_of_committed h]
  cases s <;> exact hset

/-- An exchange sends one header, before all else, and as it is when the sink takes it.  Its steps
may be any, and its sink may refuse anything. -/
theorem sends_one_header (limit : Nat) (refusal : Nat → ByteArray → ByteArray → Option String)
    (request session temporary : Params) (dispatcher : Option Dispatcher.Remembering)
    (sessionId : Option String) (steps : List Step) :
    let x : Exchange :=
      { Exchange.ofSink ⟨.empty, 0, refusal⟩ request session temporary with dispatcher, sessionId }
    let y := x.takeAll limit steps
    (.header true ∉ x.record limit steps →
      y.response.sink.bytes = .empty ∧ y.response.committed = false) ∧
    ∀ before after, x.record limit steps = before ++ .header true :: after →
      y.response.sink.bytes = (Header.ofEvents before).bytes ++ Event.body after ∧
      y.response.committed = true ∧ (∀ e ∈ after, e.IsLate) ∧
      (∀ s, y.take limit (.ofSetting s) = (.failed (.host .headerCommitted), y)) ∧
      ∀ more,
        (y.takeAll limit more).response.sink.bytes =
          y.response.sink.bytes ++ Event.body (y.record limit more) ∧
        (y.takeAll limit more).response.committed = true := by
  intro x y
  have hstart : Sends [] x.response := .nothing (by simp) rfl
  have hsends : Sends (x.record limit steps) y.response := sends_record hstart limit steps
  refine ⟨hsends.of_unsent, ?_⟩
  intro before after hrecord
  rw [hrecord] at hsends
  obtain ⟨hbytes, hcommitted, hlate⟩ := hsends.of_header
  refine ⟨hbytes, hcommitted, hlate, take_ofSetting hcommitted limit, ?_⟩
  intro more
  have hmore := sends_record hsends limit more
  rw [List.append_assoc, List.cons_append] at hmore
  obtain ⟨hbytes', hcommitted', -⟩ := hmore.of_header
  rw [hbytes', hbytes, Event.body_append, ByteArray.append_assoc]
  exact ⟨rfl, hcommitted'⟩

end Exchange

end PageScript
