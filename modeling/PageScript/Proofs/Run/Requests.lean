import PageScript.Proofs.Run.Agreement
/-!
# The requests of a run

All that a run does to its host it does by requests: to write a text, to change the parameters of a
store, to set the media type, to hand the request on.  A host can keep a log of them and is the same
host in all else, so the log tells what a run on the host alone asks for, and in which order.

What holds of a host before any request, and goes on to hold with each one that is made, holds
of the host after a run and of the log of that run.
-/

namespace PageScript

/-- What a run may ask of its host. -/
inductive Request where
  /-- To write a text. -/
  | write (text : String)
  /-- To put other parameters into a store. -/
  | setParams (memory : Memory) (params : Params)
  /-- To set the media type. -/
  | setMime (mime : String)
  /-- To hand the request on. -/
  | dispatch (path : String)

/-- A host with a log of the requests that it has been made. -/
structure Logged (σ : Type) where
  /-- The host. -/
  host : σ
  /-- The requests, in order. -/
  requests : List Request

variable {σ : Type}

namespace Logged

/-- Writes a request down and does what it asks for. -/
def ask {ε : Type} (request : Request) (action : EStateM ε σ Unit) : EStateM ε (Logged σ) Unit :=
  fun l =>
    match action l.host with
    | .ok _ host => .ok () ⟨host, l.requests ++ [request]⟩
    | .error e host => .error e ⟨host, l.requests ++ [request]⟩

instance [Host σ] : Host (Logged σ) where
  write text := ask (.write text) (Host.write text)
  params store l := Host.params store l.host
  setParams memory params l :=
    ⟨Host.setParams memory params l.host, l.requests ++ [.setParams memory params]⟩
  setMime mime := ask (.setMime mime) (Host.setMime mime)
  dispatch path := ask (.dispatch path) (Host.dispatch path)

end Logged

/-- The state that a computation leaves, whether it succeeds or fails. -/
def stateAfter {ε α : Type} : EStateM.Result ε σ α → σ
  | .ok _ s => s
  | .error _ s => s

/-- The end of a computation, with the requests that it has made. -/
def withRequests {ε α : Type} (rs : List Request) :
    EStateM.Result ε σ α → EStateM.Result ε (Logged σ) α
  | .ok a s => .ok a ⟨s, rs⟩
  | .error e s => .error e ⟨s, rs⟩

lemma withRequests_eq_ok {ε α : Type} {rs : List Request} {r : EStateM.Result ε σ α} {a : α}
    {l : Logged σ} (h : withRequests rs r = .ok a l) : ∃ s, r = .ok a s ∧ l = ⟨s, rs⟩ := by
  cases r with
  | ok b s =>
    obtain ⟨rfl, rfl⟩ := EStateM.Result.ok.inj h
    exact ⟨s, rfl, rfl⟩
  | error e s => cases h

namespace Logged

variable {P : List Request → σ → Prop}

/-- A host with a log is the host that it is without, and what follows the requests follows the
log. -/
structure Shows (P : List Request → σ → Prop) (s : σ) (l : Logged σ) : Prop where
  host_eq : l.host = s
  holds : P l.requests s

lemma agrees_ask {ε : Type} {action : EStateM ε σ Unit} {request : Request}
    (h : ∀ {rs s}, P rs s → P (rs ++ [request]) (stateAfter (action s))) :
    Agrees (Shows P) (fun _ => False) action (ask request action) := by
  rintro _ ⟨s, rs⟩ ⟨rfl, hholds⟩
  have hnext := h hholds
  unfold ask
  dsimp only at hnext ⊢
  generalize action s = r at hnext ⊢
  cases r with
  | ok _ s' => exact .ok () ⟨rfl, hnext⟩
  | error e s' => exact .error e ⟨rfl, hnext⟩

end Logged

variable [Host σ]

/-- `Host.Follows P` holds if whatever `P` says of the requests made so far and of the host, it says
again after one request more. -/
structure Host.Follows (P : List Request → σ → Prop) : Prop where
  write : ∀ {rs s}, P rs s → ∀ text, P (rs ++ [.write text]) (stateAfter (Host.write text s))
  setParams : ∀ {rs s}, P rs s → ∀ memory params,
    P (rs ++ [.setParams memory params]) (Host.setParams memory params s)
  setMime : ∀ {rs s}, P rs s → ∀ mime, P (rs ++ [.setMime mime]) (stateAfter (Host.setMime mime s))
  dispatch : ∀ {rs s}, P rs s → ∀ path,
    P (rs ++ [.dispatch path]) (stateAfter (Host.dispatch path s))

/-- A log changes nothing. -/
lemma Logged.agree {P : List Request → σ → Prop} (h : Host.Follows P) :
    Host.Agree (Shows P) fun _ => False where
  write text := agrees_ask fun hp => h.write hp text
  params_eq := by
    rintro s ⟨_, rs⟩ ⟨rfl, -⟩ store
    rfl
  setParams := by
    rintro s ⟨_, rs⟩ ⟨rfl, hholds⟩ memory params
    exact ⟨rfl, h.setParams hholds memory params⟩
  setMime mime := agrees_ask fun hp => h.setMime hp mime
  dispatch path := agrees_ask fun hp => h.dispatch hp path

namespace Document

/-- The requests that a document makes of a host, each of its loops running for at most `limit`
rounds. -/
def requests (limit : Nat) (document : Document) (host : σ) : List Request :=
  (stateAfter (document.execute limit (⟨host, []⟩ : Logged σ))).requests

variable {P : List Request → σ → Prop}

lemma requests_spec (h : Host.Follows P) {host : σ} (hstart : P [] host) (limit : Nat)
    (document : Document) :
    document.execute limit (⟨host, []⟩ : Logged σ) =
        withRequests (document.requests limit host) (document.execute limit host) ∧
      P (document.requests limit host) (stateAfter (document.execute limit host)) := by
  have hends := execute_agrees (Logged.agree h) limit document host ⟨host, []⟩ ⟨rfl, hstart⟩
  rw [requests]
  generalize document.execute limit host = r, document.execute limit (⟨host, []⟩ : Logged σ) = r'
    at hends
  cases hends with
  | @ok s l a h =>
    obtain ⟨rfl, hholds⟩ := h
    exact ⟨rfl, hholds⟩
  | @error s l e h =>
    obtain ⟨rfl, hholds⟩ := h
    exact ⟨rfl, hholds⟩
  | excused h => exact absurd h (Stop.not_isRefusal _)

/-- A run with a log ends as the run without. -/
theorem execute_logged (limit : Nat) (document : Document) (host : σ) :
    document.execute limit (⟨host, []⟩ : Logged σ) =
      withRequests (document.requests limit host) (document.execute limit host) := by
  have hfollows : Host.Follows fun (_ : List Request) (_ : σ) => True :=
    ⟨fun _ _ => trivial, fun _ _ _ => trivial, fun _ _ => trivial, fun _ _ => trivial⟩
  exact (requests_spec hfollows trivial limit document).1

/-- What follows the requests that a host is made holds after a run, of the requests of that run. -/
theorem follows (h : Host.Follows P) {host : σ} (hstart : P [] host) (limit : Nat)
    (document : Document) :
    P (document.requests limit host) (stateAfter (document.execute limit host)) :=
  (requests_spec h hstart limit document).2

end Document

end PageScript
