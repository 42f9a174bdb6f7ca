import PageScript.Host.Exchange
import PageScript.Page
/-!
# Servers

A server holds any number of exchanges at once, and the sessions that they share.  Its host program
takes one step after the other, each in one exchange.  An exchange that names no session has
persistent parameters of its own.
-/

namespace PageScript

/-- What can be done in an exchange. -/
inductive Step where
  /-- Renders a page. -/
  | render (page : String)
  /-- Writes bytes of the body. -/
  | write (data : ByteArray)
  | setMime (mime : String)
  | setEncoding (encoding : String)
  | setStatus (status : Nat)
  | setReason (reason : String)
  | setLength (length : Option Nat)
  | addCookie (cookie : Cookie)
  /-- Looks a parameter up. -/
  | get (store : Store) (name : String)
  /-- Sets a parameter. -/
  | put (memory : Memory) (name value : String)
  /-- Removes a parameter. -/
  | erase (memory : Memory) (name : String)
  /-- Asks for the names of all parameters. -/
  | names
  /-- Asks for the name of the session. -/
  | sessionId
  /-- Hands the request on. -/
  | dispatch (path : String)

/-- Why a step fails. -/
inductive Failure where
  | page (error : PageError)
  | host (error : HostError)
  | output (reason : String)
deriving DecidableEq

/-- The wording of the failure of a step. -/
def Failure.message : Failure → String
  | page e => e.message
  | host e => e.message
  | output reason => reason

/-- What a step answers. -/
inductive Answer where
  /-- The step has been taken. -/
  | done
  /-- The step has failed. -/
  | failed (failure : Failure)
  /-- What has been looked up, if there is something. -/
  | found (text : Option String)
  /-- The names of the parameters of each store, in order. -/
  | names (request persistent temporary : List String)
deriving DecidableEq

namespace Exchange

/-- Takes an action that has no other answer than its success or failure. -/
def act {ε : Type} (wrap : ε → Failure) (action : EStateM ε Exchange Unit) (x : Exchange) :
    Answer × Exchange :=
  match action x with
  | .ok _ x => (.done, x)
  | .error e x => (.failed (wrap e), x)

/-- Takes a step, rendering with at most `limit` rounds of each loop. -/
def take (limit : Nat) (step : Step) (x : Exchange) : Answer × Exchange :=
  match step with
  | .render page => act .page (PageScript.render limit page.toList) x
  | .write data => act .output (write data) x
  | .setMime mime => act .host (onResponse (Response.setMime mime)) x
  | .setEncoding encoding => act .host (onResponse (Response.setEncoding encoding)) x
  | .setStatus status => act .host (onResponse (Response.setStatus status)) x
  | .setReason reason => act .host (onResponse (Response.setReason reason)) x
  | .setLength length => act .host (onResponse (Response.setLength length)) x
  | .addCookie cookie => (.done, { x with response := x.response.addCookie cookie })
  | .get store name => (.found (Host.get? store name x), x)
  | .put memory name value => (.done, Host.put memory name value x)
  | .erase memory name => (.done, Host.erase memory name x)
  | .names => (.names x.request.keys x.session.keys x.temporary.keys, x)
  | .sessionId => (.found x.sessionId, x)
  | .dispatch path => act .host (dispatch path) x

end Exchange

/-- Exchanges and the sessions that they share. -/
structure Server where
  /-- The exchanges, each with the name of its session if it shares one. -/
  exchanges : List (Exchange × Option String)
  /-- The sessions by name. -/
  sessions : Std.ExtTreeMap String Params
  /-- The paths that any dispatcher was given, in order. -/
  dispatched : List String

namespace Server

/-- A server without exchanges. -/
def ofSessions (sessions : Std.ExtTreeMap String Params) : Server := ⟨[], sessions, []⟩

/-- Adds an exchange.  The session that it names comes into being, unless it is there. -/
def add (x : Exchange) (session : Option String) (s : Server) : Server :=
  { s with
    exchanges := s.exchanges ++ [(x, session)]
    sessions := session.elim s.sessions fun name => s.sessions.insertIfNew name ∅ }

/-- An exchange as it stands: its persistent parameters are those of the session that it names. -/
def current (x : Exchange) (session : Option String) (s : Server) : Exchange :=
  match session with
  | none => x
  | some name => { x with session := s.sessions.getD name ∅ }

/-- Takes a step in the exchange of a number.  Where there is none, nothing is done. -/
def take (limit : Nat) (i : Nat) (step : Step) (s : Server) : Answer × Server :=
  match s.exchanges[i]? with
  | none => (.done, s)
  | some (x, session) =>
    -- The session is fetched before the step and put back after it, so no other exchange can
    -- see it in between.
    let x := s.current x session
    let (answer, y) := x.take limit step
    (answer,
      { exchanges := s.exchanges.set i (y, session)
        sessions := session.elim s.sessions fun name => s.sessions.insert name y.session
        dispatched := s.dispatched ++ y.dispatched.drop x.dispatched.length })

end Server

end PageScript
