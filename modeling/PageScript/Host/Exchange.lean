import PageScript.Host
import PageScript.Response
/-!
# Hosts that answer a request

An exchange is a request together with its response.  Its persistent parameters are those of
a session, which other exchanges may share.
-/

namespace PageScript

/-- Hands a request on to the page at a path; it may fail with a reason. -/
abbrev Dispatcher := String → Except String Unit

/-- A dispatcher that may remember the paths that it was given before. -/
abbrev Dispatcher.Remembering := List String → Dispatcher

/-- A dispatcher need not remember anything. -/
instance : Coe (Option Dispatcher) (Option Dispatcher.Remembering) :=
  ⟨Option.map fun dispatcher _ => dispatcher⟩

/-- A request and its response. -/
structure Exchange where
  /-- The response. -/
  response : Response
  /-- The parameters of the request. -/
  request : Params
  /-- The parameters of the session. -/
  session : Params
  /-- The parameters that last as long as the request. -/
  temporary : Params
  /-- Who hands the request on, if there is someone. -/
  dispatcher : Option Dispatcher.Remembering
  /-- The paths that the dispatcher was given, in order. -/
  dispatched : List String
  /-- The name of the session. -/
  sessionId : Option String

namespace Exchange

/-- An exchange over a sink that no one hands on. -/
def ofSink (sink : Sink) (request session temporary : Params) : Exchange :=
  ⟨.ofSink sink, request, session, temporary, none, [], none⟩

/-- An action on the response. -/
def onResponse {ε α : Type} (action : EStateM ε Response α) : EStateM ε Exchange α := fun
  | ⟨response, request, session, temporary, dispatcher, dispatched, sessionId⟩ =>
    match action response with
    | .ok a response =>
      .ok a ⟨response, request, session, temporary, dispatcher, dispatched, sessionId⟩
    | .error e response =>
      .error e ⟨response, request, session, temporary, dispatcher, dispatched, sessionId⟩

/-- Writes bytes of the body. -/
def write (data : ByteArray) : EStateM String Exchange Unit := onResponse (Response.write data)

/-- Hands the request on, if there is someone to do it. -/
def dispatch (path : String) : EStateM HostError Exchange Unit := fun x =>
  match x.dispatcher with
  | none => .error (.noDispatcher path) x
  | some dispatcher =>
    let y := { x with dispatched := x.dispatched ++ [path] }
    match dispatcher x.dispatched path with
    | .ok _ => .ok () y
    | .error reason => .error (.dispatchFailed path reason) y

instance : Host Exchange where
  write text := write text.toUTF8
  params
    | .request, x => x.request
    | .persistent, x => x.session
    | .temporary, x => x.temporary
  setParams
    | .persistent, params, x => { x with session := params }
    | .temporary, params, x => { x with temporary := params }
  setMime mime := onResponse (Response.setMime mime)
  dispatch := dispatch

end Exchange

end PageScript
