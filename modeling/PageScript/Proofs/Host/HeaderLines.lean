import PageScript.Proofs.Host.Sending
import PageScript.Proofs.Response.HeaderLines
/-!
# The lines that an exchange sends

The header of an exchange is set by its host and by the pages that it renders.  Nobody looks for line
breaks in what they set, except that an encoding is always some spelling of UTF-8.  So a header keeps
to its lines as long as the other texts that it is sent with are free of line breaks, and a text that
is not can end the header before its end.
-/

namespace PageScript

open Text

/-! ## Encodings -/

/-- An encoding that is accepted has letters, digits and hyphens only. -/
lemma Header.isUnbroken_of_isUtf8 {encoding : String} (h : isUtf8 encoding) :
    IsUnbroken encoding := by
  have hfold : (encoding.toList.filter (· != '-')).map Char.toLower = "utf8".toList := by
    simpa [isUtf8] using h
  have notMem {c : Char} (hhyphen : c ≠ '-') (hc : c.toLower ∉ "utf8".toList) :
      c ∉ encoding.toList := by
    intro hmem
    rw [← hfold] at hc
    exact hc (List.mem_map_of_mem (List.mem_filter.2 ⟨hmem, by simpa using hhyphen⟩))
  exact ⟨notMem (by decide) (by decide), notMem (by decide) (by decide)⟩

/-- Encodings are set to spellings of UTF-8 only. -/
def Event.IsSound : Event → Prop
  | set (.encoding s) => Header.isUtf8 s = true
  | set _ | refused .. | cookie _ | header _ | data .. => True

lemma Response.isSound_perform (r : Response) (act : Act) :
    ∀ e ∈ (r.perform act).1, e.IsSound := by
  cases act with
  | set setting =>
    cases hset : set setting r with
    | error e s =>
      rw [perform, hset]
      exact List.forall_mem_singleton.2 trivial
    | ok _ s =>
      rw [perform, hset]
      refine List.forall_mem_singleton.2 ?_
      cases setting with
      | encoding encoding =>
        by_contra hutf8
        rw [Event.IsSound] at hutf8
        simp only [set, setEncoding, if_neg hutf8] at hset
        split at hset <;> cases hset
      | status | reason | mime | length => trivial
  | addCookie c => exact List.forall_mem_singleton.2 trivial
  | write data =>
    obtain ⟨header, sink, committed⟩ := r
    cases committed with
    | true =>
      obtain ⟨taken, t, -, hperform⟩ := perform_write_of_committed header sink data
      rw [hperform]
      exact List.forall_mem_singleton.2 trivial
    | false =>
      obtain ⟨t, -, hperform⟩ | ⟨taken, t, -, hperform⟩ :=
        perform_write_of_not_committed header sink data
      · rw [hperform]
        exact List.forall_mem_singleton.2 trivial
      · rw [hperform]
        exact List.forall_mem_cons.2 ⟨trivial, List.forall_mem_singleton.2 trivial⟩

lemma Response.isSound_performAll (r : Response) (acts : List Act) :
    ∀ e ∈ (r.performAll acts).1, e.IsSound := by
  induction acts generalizing r with
  | nil => exact List.forall_mem_nil _
  | cons act acts ih =>
    exact List.forall_mem_append.2 ⟨r.isSound_perform act, ih (r.perform act).2⟩

lemma Exchange.isSound_record (limit : Nat) (steps : List Step) (x : Exchange) :
    ∀ e ∈ x.record limit steps, e.IsSound := by
  induction steps generalizing x with
  | nil => exact List.forall_mem_nil _
  | cons step steps ih =>
    exact List.forall_mem_append.2 ⟨x.response.isSound_performAll _, ih (x.take limit step).2⟩

namespace Header

/-- What was set last has been set, unless it is the value given in its place. -/
lemma last_eq_or {α : Type} (f : Setting → Option α) (default : α) (es : List Event) :
    last f default es = default ∨ ∃ s, Event.set s ∈ es ∧ f s = some (last f default es) := by
  unfold last
  cases hlast : ((es.filterMap Event.setting?).filterMap f).getLast? with
  | none => exact .inl rfl
  | some a =>
    obtain ⟨s, hs, hfs⟩ := List.mem_filterMap.1 (List.mem_of_getLast? hlast)
    obtain ⟨e, he, hes⟩ := List.mem_filterMap.1 hs
    cases e with
    | set s' =>
      obtain rfl : s' = s := Option.some.inj hes
      exact .inr ⟨s', he, hfs⟩
    | refused | cookie | header | data => cases hes

lemma isUnbroken_encoding {es : List Event} (h : ∀ e ∈ es, e.IsSound) :
    IsUnbroken (ofEvents es).encoding := by
  obtain heq | ⟨s, hs, heq⟩ := last_eq_or Setting.encoding? "UTF-8" es
  · have hencoding : (ofEvents es).encoding = "UTF-8" := heq
    rw [hencoding]
    decide
  · cases s with
    | encoding encoding =>
      obtain heq : encoding = (ofEvents es).encoding := Option.some.inj heq
      exact heq ▸ isUnbroken_of_isUtf8 (h _ hs)
    | status | reason | mime | length => cases heq

end Header

/-! ## What is sent -/

namespace Exchange

variable {limit : Nat} {x : Exchange} {refusal : Nat → ByteArray → ByteArray → Option String}
  {steps : List Step} {before after : List Event}

/-- The bytes of the header that is taken, and those of the body behind it. -/
lemma toList_sent (hx : x.response = .ofSink ⟨.empty, 0, refusal⟩)
    (hrecord : x.record limit steps = before ++ .header true :: after) :
    (x.takeAll limit steps).response.sink.bytes.data.toList =
      (Header.ofEvents before).bytes.data.toList ++ (Event.body after).data.toList := by
  have hstart : Sends [] x.response := hx ▸ .nothing (by simp) rfl
  have hsends := sends_record hstart limit steps
  rw [List.nil_append, hrecord] at hsends
  rw [hsends.of_header.1]
  simp

/-- The steps of a response with a cookie and a text of two words for its status. -/
def cookieSteps : List Step :=
  [.setReason "Not found", .setEncoding "utf-8", .addCookie ⟨"a", "b", none, none, none, false⟩,
    .write "hi".toUTF8]

/-- What they say about the header. -/
def cookieEvents : List Event :=
  [.set (.reason "Not found"), .set (.encoding "utf-8"),
    .cookie ⟨"a", "b", none, none, none, false⟩]

lemma record_cookieSteps :
    (Exchange.ofSink .unbounded ∅ ∅ ∅).record 0 cookieSteps =
      cookieEvents ++ .header true :: [.data "hi".toUTF8 true] := by
  have hrecord : (Exchange.ofSink .unbounded ∅ ∅ ∅).record 0 cookieSteps =
      [.set (.reason "Not found"), .set (.encoding "utf-8"),
        .cookie ⟨"a", "b", none, none, none, false⟩, .header true, .data "hi".toUTF8 true] := rfl
  exact hrecord

/-- The steps of a response with line breaks in the text of its status. -/
def brokenSteps : List Step := [.setReason "OK\x0d\n\x0d\n", .write "hi".toUTF8]

end Exchange

end PageScript
