import PageScript.RunError
/-!
# Responses

A response is a header and a body.  Its header can be set until something is written; then
the header is sent, once, and the body follows it.  Both go to a sink, which may refuse what it is
offered, and takes each offer as a whole or not at all.
-/

namespace PageScript

/-- A receiver of bytes. -/
structure Sink where
  /-- The bytes that it has taken. -/
  bytes : ByteArray
  /-- How many offers it has been made. -/
  offers : Nat
  /-- Why it refuses an offer, if it does: it knows how many offers there were before, what it
  holds and what it is offered. -/
  refusal : Nat → ByteArray → ByteArray → Option String

namespace Sink

/-- A sink that takes everything. -/
def unbounded : Sink := ⟨.empty, 0, fun _ _ _ => none⟩

/-- A sink that never holds more than `limit` bytes. -/
def bounded (limit : Nat) : Sink :=
  ⟨.empty, 0, fun _ held data => if limit < held.size + data.size then some "sink full" else none⟩

/-- Offers bytes to a sink.  Nothing at all is not an offer. -/
def offer (data : ByteArray) : EStateM String Sink Unit := fun s =>
  if data.size = 0 then .ok () s
  else
    match s.refusal s.offers s.bytes data with
    | some reason => .error reason { s with offers := s.offers + 1 }
    | none => .ok () { s with bytes := s.bytes ++ data, offers := s.offers + 1 }

end Sink

/-- A cookie that a response sets. -/
structure Cookie where
  name : String
  value : String
  domain : Option String
  path : Option String
  /-- How many seconds the cookie lasts. -/
  maxAge : Option Nat
  /-- Whether scripts of the client cannot see the cookie. -/
  httpOnly : Bool
deriving DecidableEq, Repr

/-- The header line of a cookie, without its end. -/
def Cookie.line (c : Cookie) : String :=
  "Set-Cookie: " ++ c.name ++ "=\"" ++ c.value ++ "\"" ++
    (c.domain.elim "" fun domain => "; Domain=" ++ domain) ++
    (c.path.elim "" fun path => "; Path=" ++ path) ++
    (c.maxAge.elim "" fun seconds => "; Max-Age=" ++ toString seconds) ++
    (if c.httpOnly then "; HttpOnly" else "")

/-- What the header of a response says. -/
structure Header where
  encoding : String
  status : Nat
  reason : String
  mime : String
  length : Option Nat
  /-- The cookies, in the order in which they were added. -/
  cookies : List Cookie
deriving DecidableEq, Repr

namespace Header

/-- The header of a response that nothing has been said about. -/
def initial : Header := ⟨"UTF-8", 200, "OK", "text/html", none, []⟩

/-- The lines of a header.  Only texts have an encoding. -/
def lines (h : Header) : List String :=
  ["HTTP/1.1 " ++ toString h.status ++ " " ++ h.reason,
    "Content-Type: " ++ h.mime ++
      (if "text/".toList.isPrefixOf h.mime.toList then "; charset=" ++ h.encoding else "")] ++
    (h.length.toList.map fun n => "Content-Length: " ++ toString n) ++
    h.cookies.map Cookie.line

/-- The text of a header: its lines and an empty one. -/
def text (h : Header) : String := String.join (h.lines.map (· ++ "\x0d\n")) ++ "\x0d\n"

/-- One byte for each character; those without a byte become question marks. -/
def latin1 (s : List Char) : ByteArray :=
  ⟨(s.map fun c => if c.toNat < 256 then UInt8.ofNat c.toNat else 63).toArray⟩

/-- The bytes of a header. -/
def bytes (h : Header) : ByteArray := latin1 h.text.toList

/-- Whether an encoding is UTF-8, whatever its letter case and hyphens. -/
def isUtf8 (encoding : String) : Bool :=
  (encoding.toList.filter (· != '-')).map Char.toLower == "utf8".toList

end Header

/-- A response: its header, where it goes, and whether its header has been sent. -/
structure Response where
  header : Header
  sink : Sink
  committed : Bool

namespace Response

/-- A response that goes to a sink. -/
def ofSink (sink : Sink) : Response := ⟨.initial, sink, false⟩

/-- Sends the header, unless it has been sent. -/
def commit : EStateM String Response Unit := fun
  | ⟨header, sink, true⟩ => .ok () ⟨header, sink, true⟩
  | ⟨header, sink, false⟩ =>
    match sink.offer header.bytes with
    | .ok _ sink => .ok () ⟨header, sink, true⟩
    | .error reason sink => .error reason ⟨header, sink, false⟩

/-- Sends bytes of the body. -/
def send (data : ByteArray) : EStateM String Response Unit := fun
  | ⟨header, sink, committed⟩ =>
    match Sink.offer data sink with
    | .ok _ sink => .ok () ⟨header, sink, committed⟩
    | .error reason sink => .error reason ⟨header, sink, committed⟩

/-- Writes bytes of the body, after the header. -/
def write (data : ByteArray) : EStateM String Response Unit := do
  commit
  send data

/-- Changes the header as long as it has not been sent. -/
def setHeader (change : Header → Header) : EStateM HostError Response Unit := fun r =>
  if r.committed then .error .headerCommitted r
  else .ok () { r with header := change r.header }

/-- Sets the media type. -/
def setMime (mime : String) : EStateM HostError Response Unit := setHeader ({ · with mime })

/-- Sets the status code. -/
def setStatus (status : Nat) : EStateM HostError Response Unit := setHeader ({ · with status })

/-- Sets the text of the status. -/
def setReason (reason : String) : EStateM HostError Response Unit := setHeader ({ · with reason })

/-- Sets or removes the length of the body. -/
def setLength (length : Option Nat) : EStateM HostError Response Unit :=
  setHeader ({ · with length })

/-- Sets the spelling of the encoding, which can be UTF-8 only. -/
def setEncoding (encoding : String) : EStateM HostError Response Unit := fun r =>
  if r.committed then .error .headerCommitted r
  else if Header.isUtf8 encoding then setHeader ({ · with encoding }) r
  else .error (.unsupportedEncoding encoding) r

/-- Adds a cookie.  Once the header has been sent the cookie comes too late, and nobody is told. -/
def addCookie (cookie : Cookie) (r : Response) : Response :=
  { r with header.cookies := r.header.cookies ++ [cookie] }

end Response

end PageScript
