import PageScript.Host.Buffer
import PageScript.Host.Exchange
import PageScript.Proofs.Response.Sending
import PageScript.Proofs.Run.Requests
/-!
# Buffers and exchanges agree

A document does in an exchange what it does in a buffer, as long as the exchange does not refuse
what the buffer grants: a media type once the header has been sent, or to hand the request on.  The
two keep the same parameters, and what the buffer has in its output is what follows the header of
the response.

The invariant ties the exchange to the buffer and to the requests that both were made: the header is
sent with the first text that is written, and says the media type that was set last before.
-/

namespace PageScript

namespace Request

/-- Whether a text is to be written. -/
def isWrite : Request → Bool
  | write _ => true
  | setParams .. | setMime _ | dispatch _ => false

/-- The media type that is to be set, if it is that. -/
def mime? : Request → Option String
  | setMime mime => some mime
  | write _ | setParams .. | dispatch _ => none

/-- The media type that is set last, if one is set. -/
def lastMime? (rs : List Request) : Option String := (rs.filterMap mime?).getLast?

lemma lastMime?_concat (rs : List Request) (r : Request) :
    lastMime? (rs ++ [r]) = r.mime?.or (lastMime? rs) := by
  rw [lastMime?, List.filterMap_append, List.getLast?_append]
  cases h : r.mime? <;> simp [h, lastMime?]

lemma any_isWrite_concat (rs : List Request) (r : Request) :
    (rs ++ [r]).any isWrite = (rs.any isWrite || r.isWrite) := by
  simp

end Request

/-- The refusals of an exchange that a buffer has not. -/
inductive HostError.IsOfExchange : HostError → Prop
  /-- The header has been sent. -/
  | headerCommitted : IsOfExchange .headerCommitted
  /-- There is no one to hand the request on. -/
  | noDispatcher (path : String) : IsOfExchange (.noDispatcher path)
  /-- Who should hand the request on fails to. -/
  | dispatchFailed (path reason : String) : IsOfExchange (.dispatchFailed path reason)

/-- The header of a response about which nothing was said but its media type. -/
def Header.ofMime (mime : Option String) : Header :=
  { Header.initial with mime := mime.getD "text/html" }

namespace Response

/-- The bytes of a response to a document that has made these requests, with what is written of its
body: none before something is written, then the header and the body. -/
def bytesAfter (rs : List Request) (body : String) : ByteArray :=
  if rs.any Request.isWrite then (Header.ofMime (Request.lastMime? rs)).bytes ++ body.toUTF8
  else .empty

variable {rs : List Request} {body : String}

lemma bytesAfter_of_any (h : rs.any Request.isWrite = true) :
    bytesAfter rs body = (Header.ofMime (Request.lastMime? rs)).bytes ++ body.toUTF8 :=
  if_pos h

lemma bytesAfter_of_not_any (h : rs.any Request.isWrite = false) : bytesAfter rs body = .empty :=
  if_neg (by simp [h])

end Response

namespace Sink

/-- A sink that takes everything. -/
def TakesAll (s : Sink) : Prop := ∀ offers held data, s.refusal offers held data = none

lemma TakesAll.offer {s : Sink} (h : s.TakesAll) (data : ByteArray) :
    ∃ t : Sink, s.offer data = .ok () t ∧ t.bytes = s.bytes ++ data ∧ t.TakesAll := by
  obtain ⟨t, ht, hbytes, hrefusal⟩ | ⟨reason, t, -, -, hreason⟩ := s.offer_eq data
  · refine ⟨t, ht, hbytes, ?_⟩
    rw [TakesAll, hrefusal]
    exact h
  · rw [h] at hreason
    cases hreason

end Sink

/-- Where the sink takes everything, so does a response, and its header comes before the rest. -/
lemma Response.write_of_takesAll {r : Response} (h : r.sink.TakesAll) (data : ByteArray) :
    ∃ sink : Sink, write data r = .ok () ⟨r.header, sink, true⟩ ∧ sink.TakesAll ∧
      sink.bytes =
        (if r.committed then r.sink.bytes else r.sink.bytes ++ r.header.bytes) ++ data := by
  obtain ⟨header, sink, committed⟩ := r
  cases committed with
  | true =>
    obtain ⟨t, ht, hbytes, htakes⟩ := h.offer data
    refine ⟨t, ?_, htakes, hbytes⟩
    simp only [write, commit, send, bind, EStateM.bind, ht]
  | false =>
    obtain ⟨t, ht, hbytes, htakes⟩ := h.offer header.bytes
    obtain ⟨u, hu, hbytes', htakes'⟩ := htakes.offer data
    refine ⟨u, ?_, htakes', by rw [hbytes', hbytes]; rfl⟩
    simp only [write, commit, send, bind, EStateM.bind, ht, hu]

/-! ## The invariant -/

/-- An exchange that answers as a buffer does, both having been made the same requests. -/
structure Answers (l : Logged Buffer) (x : Exchange) : Prop where
  request_eq : x.request = l.host.request
  session_eq : x.session = l.host.persistent
  temporary_eq : x.temporary = l.host.temporary
  takesAll : x.response.sink.TakesAll
  /-- The header is sent with the first text. -/
  committed_eq : x.response.committed = l.requests.any Request.isWrite
  /-- It says the media type that was set last. -/
  header_eq : x.response.header = .ofMime (Request.lastMime? l.requests)
  bytes_eq : x.response.sink.bytes = Response.bytesAfter l.requests l.host.output
  /-- What has not been written to is empty. -/
  output_eq : l.requests.any Request.isWrite = false → l.host.output = ""

namespace Answers

/-- A request other than to write or to set the media type is nothing to the response. -/
lemma response_eq {l : Logged Buffer} {x : Exchange} (h : Answers l x) {b : Buffer} {r : Request}
    (hwrite : r.isWrite = false) (hmime : r.mime? = none) (hb : b.output = l.host.output) :
    x.response.committed = (l.requests ++ [r]).any Request.isWrite ∧
      x.response.header = .ofMime (Request.lastMime? (l.requests ++ [r])) ∧
      x.response.sink.bytes = Response.bytesAfter (l.requests ++ [r]) b.output ∧
      ((l.requests ++ [r]).any Request.isWrite = false → b.output = "") := by
  have hany : (l.requests ++ [r]).any Request.isWrite = l.requests.any Request.isWrite := by
    rw [Request.any_isWrite_concat, hwrite, Bool.or_false]
  have hlast : Request.lastMime? (l.requests ++ [r]) = Request.lastMime? l.requests := by
    rw [Request.lastMime?_concat, hmime, Option.none_or]
  rw [Response.bytesAfter, hany, hlast, hb]
  exact ⟨h.committed_eq, h.header_eq, h.bytes_eq, h.output_eq⟩

lemma write (text : String) :
    Agrees Answers (fun _ => False) (Host.write text) (Host.write text) := by
  rintro ⟨b, rs⟩ x h
  obtain ⟨sink, hwrite, htakes, hbytes⟩ := Response.write_of_takesAll h.takesAll text.toUTF8
  have hx : Host.write text x =
      .ok () { x with response := ⟨x.response.header, sink, true⟩ } := by
    simp only [Host.write, Exchange.write, Exchange.onResponse, hwrite]
  have hany : (rs ++ [Request.write text]).any Request.isWrite := by simp [Request.isWrite]
  have hlast : Request.lastMime? (rs ++ [.write text]) = Request.lastMime? rs := by
    rw [Request.lastMime?_concat]
    rfl
  rw [hx]
  refine .ok () ⟨h.request_eq, h.session_eq, h.temporary_eq, htakes, hany.symm, ?_, ?_, ?_⟩
  · exact h.header_eq.trans (congrArg _ hlast.symm)
  · rw [Response.bytesAfter_of_any hany, hlast]
    dsimp only
    rw [hbytes, h.committed_eq, h.header_eq, h.bytes_eq]
    cases hwrites : rs.any Request.isWrite with
    | true =>
      rw [if_pos rfl, Response.bytesAfter_of_any hwrites]
      simp [ByteArray.append_assoc]
    | false =>
      have houtput : b.output = "" := h.output_eq hwrites
      rw [if_neg (by simp), Response.bytesAfter_of_not_any hwrites, houtput]
      simp
  · intro hnone
    rw [hany] at hnone
    cases hnone

lemma setMime (mime : String) :
    Agrees Answers HostError.IsOfExchange (Host.setMime mime) (Host.setMime mime) := by
  rintro ⟨b, rs⟩ ⟨⟨header, sink, committed⟩, request, session, temporary, dispatcher, paths, id⟩ h
  cases committed with
  | true => exact .excused .headerCommitted
  | false =>
    have hwrites : rs.any Request.isWrite = false := h.committed_eq.symm
    have hany : (rs ++ [Request.setMime mime]).any Request.isWrite = false := by
      rw [Request.any_isWrite_concat, hwrites]
      rfl
    have hlast : Request.lastMime? (rs ++ [.setMime mime]) = some mime := by
      rw [Request.lastMime?_concat]
      rfl
    refine .ok () ⟨h.request_eq, h.session_eq, h.temporary_eq, h.takesAll, hany.symm, ?_, ?_, ?_⟩
    · dsimp only
      rw [hlast, show header = _ from h.header_eq]
      rfl
    · rw [Response.bytesAfter_of_not_any hany]
      exact h.bytes_eq.trans (Response.bytesAfter_of_not_any hwrites)
    · exact fun _ => h.output_eq hwrites

lemma dispatch (path : String) :
    Agrees Answers HostError.IsOfExchange (Host.dispatch path) (Host.dispatch path) := by
  rintro ⟨b, rs⟩ x h
  obtain ⟨hcommitted, hheader, hbytes, houtput⟩ :=
    h.response_eq (b := { b with dispatched := b.dispatched ++ [path] })
      (r := .dispatch path) rfl rfl rfl
  simp only [Host.dispatch, Logged.ask, Exchange.dispatch]
  cases hdispatcher : x.dispatcher with
  | none => exact .excused (.noDispatcher path)
  | some dispatcher =>
    dsimp only
    cases dispatcher x.dispatched path with
    | error reason => exact .excused (.dispatchFailed path reason)
    | ok _ => exact .ok () ⟨h.request_eq, h.session_eq, h.temporary_eq, h.takesAll, hcommitted,
        hheader, hbytes, houtput⟩

lemma setParams {l : Logged Buffer} {x : Exchange} (h : Answers l x) (memory : Memory)
    (params : Params) :
    Answers (Host.setParams memory params l) (Host.setParams memory params x) := by
  have hresponse (b : Buffer) (hb : b.output = l.host.output) :=
    h.response_eq (r := .setParams memory params) rfl rfl hb
  cases memory with
  | persistent =>
    obtain ⟨hcommitted, hheader, hbytes, houtput⟩ :=
      hresponse { l.host with persistent := params } rfl
    exact ⟨h.request_eq, rfl, h.temporary_eq, h.takesAll, hcommitted, hheader, hbytes, houtput⟩
  | temporary =>
    obtain ⟨hcommitted, hheader, hbytes, houtput⟩ :=
      hresponse { l.host with temporary := params } rfl
    exact ⟨h.request_eq, h.session_eq, rfl, h.takesAll, hcommitted, hheader, hbytes, houtput⟩

/-- An exchange over a sink that takes everything agrees with a buffer. -/
theorem hosts : Host.Agree Answers HostError.IsOfExchange where
  write := write
  params_eq := by
    rintro l x h store
    cases store with
    | request => exact h.request_eq.symm
    | persistent => exact h.session_eq.symm
    | temporary => exact h.temporary_eq.symm
  setParams h := h.setParams
  setMime := setMime
  dispatch := dispatch

/-- At first nothing has been asked of either. -/
lemma start (request persistent temporary : Params) (dispatcher : Option Dispatcher.Remembering)
    (sessionId : Option String) :
    Answers ⟨Buffer.ofParams request persistent temporary, []⟩
      { Exchange.ofSink .unbounded request persistent temporary with dispatcher, sessionId } :=
  ⟨rfl, rfl, rfl, fun _ _ _ => rfl, rfl, rfl, rfl, fun _ => rfl⟩

end Answers

/-- A document that succeeds in an exchange succeeds in a buffer, and leaves the same parameters
there; the bytes of the response are those of the header and of the output of the buffer, if the
document writes anything.  A document that fails in one of them alone fails in the exchange, for one
of the refusals that only exchanges know; they may also come before a failure that both have. -/
theorem Document.execute_exchange (limit : Nat) (document : Document)
    (request persistent temporary : Params) (dispatcher : Option Dispatcher.Remembering)
    (sessionId : Option String) :
    let buffer := Buffer.ofParams request persistent temporary
    let exchange : Exchange :=
      { Exchange.ofSink .unbounded request persistent temporary with dispatcher, sessionId }
    (∀ x, document.execute limit exchange = .ok () x →
      ∃ b, document.execute limit buffer = .ok () b ∧ x.session = b.persistent ∧
        x.temporary = b.temporary ∧
        x.response.sink.bytes =
          Response.bytesAfter (document.requests limit buffer) b.output) ∧
    (∀ b stop x, document.execute limit buffer = .ok () b →
      document.execute limit exchange = .error stop x →
      ∃ e : HostError, stop = .failed (.host e) ∧ e.IsOfExchange) ∧
    (∀ e b, document.execute limit buffer = .error (.failed e) b →
      ∃ f x, document.execute limit exchange = .error (.failed f) x ∧
        (f = e ∨ ∃ g : HostError, f = .host g ∧ g.IsOfExchange)) := by
  intro buffer exchange
  have hends := execute_agrees Answers.hosts limit document _ _
    (Answers.start request persistent temporary dispatcher sessionId)
  rw [execute_logged] at hends
  change Agreement _ _ (withRequests _ (document.execute limit buffer))
    (document.execute limit exchange) at hends
  generalize document.requests limit buffer = rs, document.execute limit buffer = r,
    document.execute limit exchange = r' at hends ⊢
  refine ⟨?_, ?_, ?_⟩
  · rintro x rfl
    generalize hlogged : withRequests rs r = logged at hends
    cases hends with
    | @ok l _ _ h =>
      obtain ⟨b, rfl, rfl⟩ := withRequests_eq_ok hlogged
      exact ⟨b, rfl, h.session_eq, h.temporary_eq, h.bytes_eq⟩
  · rintro b stop x rfl rfl
    cases hends with
    | excused h => exact Stop.isRefusal_iff.1 h
  · rintro e b rfl
    cases hends with
    | @error _ x _ _ => exact ⟨e, x, rfl, .inl rfl⟩
    | @excused _ stop x h =>
      obtain ⟨f, rfl, hf⟩ := Stop.isRefusal_iff.1 h
      exact ⟨.host f, x, rfl, .inr ⟨f, rfl, hf⟩⟩

end PageScript
