import PageScript.Response
import Mathlib.Data.List.Basic
import Mathlib.Tactic.Lemma
/-!
# What a response sends

A response is set up and written to, in any order, and its sink may refuse what it is offered.  The
record of all that happens tells what the sink holds: nothing until it takes a header, and from then
on that header and the data that it takes.  A header that is refused is built anew with the next
write; one that is taken is never built again, and no setting changes it.
-/

namespace PageScript

/-! ## Settings and events -/

/-- A setting of the header. -/
inductive Setting where
  | encoding (encoding : String)
  | status (status : Nat)
  | reason (reason : String)
  | mime (mime : String)
  | length (length : Option Nat)

namespace Setting

/-- The encoding that is set, if it is that. -/
def encoding? : Setting → Option String
  | encoding s => some s
  | _ => none

/-- The status that is set, if it is that. -/
def status? : Setting → Option Nat
  | status n => some n
  | _ => none

/-- The text of the status that is set, if it is that. -/
def reason? : Setting → Option String
  | reason s => some s
  | _ => none

/-- The media type that is set, if it is that. -/
def mime? : Setting → Option String
  | mime s => some s
  | _ => none

/-- The length that is set or removed, if it is that. -/
def length? : Setting → Option (Option Nat)
  | length n => some n
  | _ => none

/-- Puts a setting into a header. -/
def apply : Setting → Header → Header
  | encoding s, h => { h with encoding := s }
  | status n, h => { h with status := n }
  | reason s, h => { h with reason := s }
  | mime s, h => { h with mime := s }
  | length n, h => { h with length := n }

end Setting

/-- What is done to a response. -/
inductive Act where
  /-- The header is set. -/
  | set (setting : Setting)
  /-- A cookie is added. -/
  | addCookie (cookie : Cookie)
  /-- Bytes of the body are written. -/
  | write (data : ByteArray)

/-- What happens to a response. -/
inductive Event where
  /-- The header is set. -/
  | set (setting : Setting)
  /-- The header cannot be set. -/
  | refused (setting : Setting) (error : HostError)
  /-- A cookie is added. -/
  | cookie (cookie : Cookie)
  /-- The header is offered to the sink, which takes it or not. -/
  | header (taken : Bool)
  /-- Bytes of the body are offered to the sink, which takes them or not. -/
  | data (bytes : ByteArray) (taken : Bool)

namespace Event

/-- The setting that is made, if it is that. -/
def setting? : Event → Option Setting
  | set s => some s
  | _ => none

/-- The cookie that is added, if it is that. -/
def cookie? : Event → Option Cookie
  | cookie c => some c
  | _ => none

/-- The bytes of the body that the sink takes. -/
def taken : Event → ByteArray
  | data bytes true => bytes
  | _ => .empty

/-- What may happen once the header has been sent: it cannot be set, for that very reason, and is
not offered again. -/
def IsLate : Event → Prop
  | set _ | header _ => False
  | refused _ e => e = .headerCommitted
  | cookie _ | data .. => True

/-- The bytes of the body that the sink has taken. -/
def body : List Event → ByteArray
  | [] => .empty
  | e :: es => e.taken ++ body es

lemma body_append (es fs : List Event) : body (es ++ fs) = body es ++ body fs := by
  induction es with
  | nil => exact ByteArray.empty_append.symm
  | cons e es ih => rw [List.cons_append, body, body, ih, ByteArray.append_assoc]

end Event

namespace Header

/-- What was set last, or a value given in its place. -/
def last {α : Type} (f : Setting → Option α) (default : α) (es : List Event) : α :=
  ((es.filterMap Event.setting?).filterMap f).getLast?.getD default

/-- The header that the settings and cookies of a record make: each setting as it was made last, and
all cookies in order. -/
def ofEvents (es : List Event) : Header where
  encoding := last Setting.encoding? "UTF-8" es
  status := last Setting.status? 200 es
  reason := last Setting.reason? "OK" es
  mime := last Setting.mime? "text/html" es
  length := last Setting.length? none es
  cookies := es.filterMap Event.cookie?

variable {α : Type} {f : Setting → Option α} {default : α} {es : List Event} {e : Event}

lemma last_concat : last f default (es ++ [e]) = (e.setting?.bind f).getD (last f default es) := by
  unfold last
  rw [List.filterMap_append, List.filterMap_append, List.getLast?_append]
  cases he : e.setting? with
  | none => simp [he]
  | some s => cases hs : f s <;> simp [he, hs]

/-- An event that is neither a setting nor a cookie is nothing to the header. -/
lemma ofEvents_concat (hsetting : e.setting? = none) (hcookie : e.cookie? = none) :
    ofEvents (es ++ [e]) = ofEvents es := by
  simp [ofEvents, last_concat, hsetting, hcookie]

lemma ofEvents_concat_set (s : Setting) : ofEvents (es ++ [.set s]) = s.apply (ofEvents es) := by
  cases s <;> simp [ofEvents, last_concat, Setting.apply, Event.setting?, Event.cookie?,
    Setting.encoding?, Setting.status?, Setting.reason?, Setting.mime?, Setting.length?]

lemma ofEvents_concat_cookie (c : Cookie) :
    ofEvents (es ++ [.cookie c]) =
      { ofEvents es with cookies := (ofEvents es).cookies ++ [c] } := by
  simp [ofEvents, last_concat, Event.setting?, Event.cookie?]

end Header

/-! ## Acts -/

/-- A sink that is offered bytes takes them behind what it holds, or refuses them and holds what it
held. -/
lemma Sink.offer_eq (s : Sink) (data : ByteArray) :
    (∃ t : Sink, s.offer data = .ok () t ∧ t.bytes = s.bytes ++ data ∧ t.refusal = s.refusal) ∨
      ∃ reason, ∃ t : Sink, s.offer data = .error reason t ∧ t.bytes = s.bytes ∧
        s.refusal s.offers s.bytes data = some reason := by
  unfold Sink.offer
  split
  · next hdata =>
    refine .inl ⟨s, rfl, ?_, rfl⟩
    rw [ByteArray.size_eq_zero_iff.1 hdata, ByteArray.append_empty]
  · split
    · next reason hreason => exact .inr ⟨reason, _, rfl, rfl, hreason⟩
    · exact .inl ⟨_, rfl, rfl, rfl⟩

namespace Response

/-- Makes a setting of the header. -/
def set : Setting → EStateM HostError Response Unit
  | .encoding s => setEncoding s
  | .status n => setStatus n
  | .reason s => setReason s
  | .mime s => setMime s
  | .length n => setLength n

/-- What happens when something is done to a response, and the response after it.  A write commits
the response to its header first; if that succeeds, the data are sent. -/
def perform (r : Response) : Act → List Event × Response
  | .set setting =>
    match set setting r with
    | .ok _ r => ([.set setting], r)
    | .error e r => ([.refused setting e], r)
  | .addCookie cookie => ([.cookie cookie], r.addCookie cookie)
  | .write data =>
    match commit r with
    | .error _ r => ([.header false], r)
    | .ok _ s =>
      let first := if r.committed then [] else [.header true]
      match send data s with
      | .ok _ t => (first ++ [.data data true], t)
      | .error _ t => (first ++ [.data data false], t)

variable {r : Response}

/-- No setting is made any more once the header has been sent. -/
lemma set_of_committed (h : r.committed = true) (s : Setting) :
    set s r = .error .headerCommitted r := by
  cases s <;> simp [set, setEncoding, setStatus, setReason, setMime, setLength, setHeader, h]

lemma set_of_not_committed (h : r.committed = false) (s : Setting) :
    set s r = .ok () { r with header := s.apply r.header } ∨ ∃ e, set s r = .error e r := by
  cases s with
  | encoding s =>
    by_cases hs : Header.isUtf8 s
    · left
      simp [set, setEncoding, setHeader, h, hs, Setting.apply]
    · right
      exact ⟨.unsupportedEncoding s, by simp [set, setEncoding, h, hs]⟩
  | status | reason | mime | length =>
    left
    simp [set, setStatus, setReason, setMime, setLength, setHeader, h, Setting.apply]

/-- Once the header has been sent, a write offers its data only. -/
lemma perform_write_of_committed (header : Header) (sink : Sink) (data : ByteArray) :
    ∃ (taken : Bool) (t : Sink), t.bytes = sink.bytes ++ (Event.data data taken).taken ∧
      perform ⟨header, sink, true⟩ (.write data) = ([.data data taken], ⟨header, t, true⟩) := by
  obtain ⟨t, ht, hbytes, -⟩ | ⟨reason, t, ht, hbytes, -⟩ := sink.offer_eq data
  · exact ⟨true, t, hbytes, by simp [perform, commit, send, ht]⟩
  · exact ⟨false, t, hbytes.trans ByteArray.append_empty.symm,
      by simp [perform, commit, send, ht]⟩

/-- Before that, it offers the header first, and its data only if the header is taken. -/
lemma perform_write_of_not_committed (header : Header) (sink : Sink) (data : ByteArray) :
    (∃ t : Sink, t.bytes = sink.bytes ∧
      perform ⟨header, sink, false⟩ (.write data) = ([.header false], ⟨header, t, false⟩)) ∨
    ∃ (taken : Bool) (t : Sink),
      t.bytes = sink.bytes ++ header.bytes ++ (Event.data data taken).taken ∧
      perform ⟨header, sink, false⟩ (.write data) =
        ([.header true, .data data taken], ⟨header, t, true⟩) := by
  obtain ⟨t, ht, hbytes, -⟩ | ⟨reason, t, ht, hbytes, -⟩ := sink.offer_eq header.bytes
  · right
    obtain ⟨u, hu, hbytes', -⟩ | ⟨reason, u, hu, hbytes', -⟩ := t.offer_eq data
    · refine ⟨true, u, ?_, by simp [perform, commit, send, ht, hu]⟩
      rw [hbytes', hbytes, Event.taken]
    · refine ⟨false, u, ?_, by simp [perform, commit, send, ht, hu]⟩
      exact (hbytes'.trans hbytes).trans ByteArray.append_empty.symm
  · exact .inl ⟨t, hbytes, by simp [perform, commit, ht]⟩

end Response

/-! ## What has been sent -/

/-- `Sends es r` holds if the events `es` bring a fresh response to `r`. -/
inductive Sends : List Event → Response → Prop
  /-- No header has been taken: nothing has been sent, and the header is what was set so far. -/
  | nothing {es : List Event} {sink : Sink} (unsent : .header true ∉ es)
      (bytes_eq : sink.bytes = .empty) : Sends es ⟨.ofEvents es, sink, false⟩
  /-- A header has been taken: it was what had been set before, and the data that were taken have
  followed it. -/
  | header {before after : List Event} {header : Header} {sink : Sink}
      (unsent : .header true ∉ before) (late : ∀ e ∈ after, e.IsLate)
      (bytes_eq : sink.bytes = (Header.ofEvents before).bytes ++ Event.body after) :
      Sends (before ++ .header true :: after) ⟨header, sink, true⟩

namespace Sends

variable {es : List Event} {r : Response}

/-- Whatever is done to a response, its record goes on to tell what it has sent. -/
theorem perform (h : Sends es r) (act : Act) :
    Sends (es ++ (r.perform act).1) (r.perform act).2 := by
  cases h with
  | @nothing es sink unsent bytes_eq =>
    have goOn {e : Event} {header : Header} {sink' : Sink} (he : e ≠ .header true)
        (hheader : header = .ofEvents (es ++ [e])) (hbytes : sink'.bytes = sink.bytes) :
        Sends (es ++ [e]) ⟨header, sink', false⟩ := by
      subst hheader
      exact .nothing (by simp [unsent, he.symm]) (hbytes.trans bytes_eq)
    cases act with
    | set s =>
      rw [Response.perform]
      obtain hset | ⟨e, hset⟩ :=
        Response.set_of_not_committed (r := ⟨.ofEvents es, sink, false⟩) rfl s
      · rw [hset]
        exact goOn (by simp) (Header.ofEvents_concat_set s).symm rfl
      · rw [hset]
        exact goOn (by simp) (Header.ofEvents_concat rfl rfl).symm rfl
    | addCookie c => exact goOn (by simp) (Header.ofEvents_concat_cookie c).symm rfl
    | write data =>
      obtain ⟨t, hbytes, hperform⟩ | ⟨taken, t, hbytes, hperform⟩ :=
        Response.perform_write_of_not_committed (.ofEvents es) sink data
      · rw [hperform]
        exact goOn (by simp) (Header.ofEvents_concat rfl rfl).symm hbytes
      · rw [hperform]
        refine .header unsent (by simp [Event.IsLate]) ?_
        rw [hbytes, bytes_eq, ByteArray.empty_append, Event.body, Event.body,
          ByteArray.append_empty]
  | @header before after header sink unsent late bytes_eq =>
    have goOn {e : Event} {header' : Header} {sink' : Sink} (he : e.IsLate)
        (hbytes : sink'.bytes = sink.bytes ++ e.taken) :
        Sends (before ++ .header true :: after ++ [e]) ⟨header', sink', true⟩ := by
      rw [List.append_assoc, List.cons_append]
      refine .header unsent (List.forall_mem_append.2 ⟨late, by simpa using he⟩) ?_
      rw [hbytes, bytes_eq, Event.body_append, Event.body, Event.body, ByteArray.append_empty,
        ByteArray.append_assoc]
    cases act with
    | set s =>
      rw [Response.perform, Response.set_of_committed rfl]
      exact goOn rfl ByteArray.append_empty.symm
    | addCookie c => exact goOn trivial ByteArray.append_empty.symm
    | write data =>
      obtain ⟨taken, t, hbytes, hperform⟩ := Response.perform_write_of_committed header sink data
      rw [hperform]
      exact goOn trivial hbytes

lemma of_unsent (h : Sends es r) (unsent : .header true ∉ es) :
    r.sink.bytes = .empty ∧ r.committed = false := by
  cases h with
  | nothing _ bytes_eq => exact ⟨bytes_eq, rfl⟩
  | header => simp at unsent

lemma of_header {before after : List Event} (h : Sends (before ++ .header true :: after) r) :
    r.sink.bytes = (Header.ofEvents before).bytes ++ Event.body after ∧ r.committed = true ∧
      ∀ e ∈ after, e.IsLate := by
  generalize hes : before ++ .header true :: after = es at h
  cases h with
  | nothing unsent' =>
    subst hes
    simp at unsent'
  | @header _ rest _ _ unsent' late bytes_eq =>
    -- The header that is taken first is the only one.
    have once : Event.header true ∉ rest := fun hmem => late _ hmem
    obtain ⟨rfl, -, rfl⟩ := (List.append_cons_inj_of_notMem unsent' once).1 hes.symm
    exact ⟨bytes_eq, rfl, late⟩

end Sends

end PageScript
