import PageScript.Proofs.Host.Sending
import PageScript.Proofs.Run.Room
/-!
# Full sinks

A sink that never holds more than so many bytes refuses an offer as a whole if it would.  So each
write of a text takes as much of the room that it has left as the text has bytes, besides what the
header takes, or is refused and ends the run.  A document whose loops write comes to an end over
such a sink.
-/

namespace PageScript

/-! ## Room of a sink -/

namespace Sink

variable {capacity n : Nat} {s t : Sink} {data : ByteArray}

/-- A sink refuses whatever would take it beyond `capacity` bytes.  It may refuse other offers
too. -/
def RefusesBeyond (capacity : Nat) (s : Sink) : Prop :=
  ∀ offers held data, capacity < held.size + data.size → s.refusal offers held data ≠ none

lemma refusesBeyond_bounded (capacity : Nat) : (bounded capacity).RefusesBeyond capacity := by
  intro offers held data hlt
  simp [bounded, hlt]

/-- A sink has room for `n` bytes at most. -/
structure HasRoom (capacity n : Nat) (s : Sink) : Prop where
  refuses : s.RefusesBeyond capacity
  le : capacity ≤ s.bytes.size + n

/-- What a sink takes, it takes out of its room. -/
lemma HasRoom.offer (h : s.HasRoom capacity n) (hoffer : s.offer data = .ok () t) :
    ∃ k, k + data.size ≤ n ∧ t.HasRoom capacity k := by
  unfold Sink.offer at hoffer
  split at hoffer
  · next hempty =>
    obtain ⟨-, rfl⟩ := EStateM.Result.ok.inj hoffer
    exact ⟨n, by omega, h⟩
  split at hoffer
  · cases hoffer
  next htaken =>
  obtain ⟨-, rfl⟩ := EStateM.Result.ok.inj hoffer
  have hfits : ¬ capacity < s.bytes.size + data.size := fun hlt => h.refuses _ _ _ hlt htaken
  have hle := h.le
  refine ⟨capacity - (s.bytes.size + data.size), by omega, h.refuses, ?_⟩
  rw [ByteArray.size_append]
  omega

end Sink

namespace Response

variable {capacity n : Nat} {r r' : Response} {data : ByteArray}

lemma hasRoom_commit (h : r.sink.HasRoom capacity n) (hcommit : commit r = .ok () r') :
    ∃ k ≤ n, r'.sink.HasRoom capacity k := by
  obtain ⟨header, sink, committed⟩ := r
  cases committed with
  | true =>
    obtain ⟨-, rfl⟩ := EStateM.Result.ok.inj hcommit
    exact ⟨n, Nat.le_refl n, h⟩
  | false =>
    unfold commit at hcommit
    cases hoffer : sink.offer header.bytes with
    | error reason t => simp [hoffer] at hcommit
    | ok _ t =>
      simp only [hoffer] at hcommit
      obtain ⟨-, rfl⟩ := EStateM.Result.ok.inj hcommit
      obtain ⟨k, hle, hroom⟩ := h.offer hoffer
      exact ⟨k, by omega, hroom⟩

lemma hasRoom_send (h : r.sink.HasRoom capacity n) (hsend : send data r = .ok () r') :
    ∃ k, k + data.size ≤ n ∧ r'.sink.HasRoom capacity k := by
  obtain ⟨header, sink, committed⟩ := r
  unfold send at hsend
  cases hoffer : sink.offer data with
  | error reason t => simp [hoffer] at hsend
  | ok _ t =>
    simp only [hoffer] at hsend
    obtain ⟨-, rfl⟩ := EStateM.Result.ok.inj hsend
    exact h.offer hoffer

/-- A write takes its data out of the room of the sink, and perhaps a header before that. -/
lemma hasRoom_write (h : r.sink.HasRoom capacity n) (hwrite : write data r = .ok () r') :
    ∃ k, k + data.size ≤ n ∧ r'.sink.HasRoom capacity k := by
  simp only [write, bind, EStateM.bind] at hwrite
  cases hcommit : commit r with
  | error reason s => simp [hcommit] at hwrite
  | ok _ s =>
    rw [hcommit] at hwrite
    obtain ⟨k, hk, hroom⟩ := hasRoom_commit h hcommit
    obtain ⟨k', hk', hroom'⟩ := hasRoom_send hroom hwrite
    exact ⟨k', by omega, hroom'⟩

end Response

/-! ## Runs over a full sink -/

namespace Exchange

lemma response_of_onResponse {ε α : Type} {action : EStateM ε Response α} {x y : Exchange} {a : α}
    (h : onResponse action x = .ok a y) : action x.response = .ok a y.response := by
  unfold onResponse at h
  dsimp only at h
  cases haction : action x.response with
  | error e r => simp [haction] at h
  | ok b r =>
    rw [haction] at h
    obtain ⟨rfl, rfl⟩ := EStateM.Result.ok.inj h
    rfl

lemma sink_setMime (mime : String) (x : Exchange) :
    (stateAfter (Host.setMime mime x)).response.sink = x.response.sink := by
  refine (congrArg Response.sink (stateAfter_onResponse _ x)).trans ?_
  unfold Response.setMime Response.setHeader
  split <;> rfl

/-- An exchange fills its sink. -/
lemma fills (capacity : Nat) :
    Host.Fills fun n (x : Exchange) => x.response.sink.HasRoom capacity n where
  keeps n := by
    refine ⟨fun {x} h memory params => ?_, fun {x} h mime => ?_, fun {x} h path => ?_⟩
    · rwa [setParams_response]
    · rwa [sink_setMime]
    · rwa [show Host.dispatch path x = dispatch path x from rfl, stateAfter_dispatch]
  write h hwrite := Response.hasRoom_write h (response_of_onResponse hwrite)

end Exchange

namespace Document

/-- A document in which each loop has a text among the nodes of its body, which is not empty, comes
to an end over a sink that refuses whatever would take it beyond `capacity` bytes: it succeeds or
fails, whatever has happened in the exchange before.  It needs no more rounds of any loop than the
sink has room for bytes, and one comparison more; that it may take more changes nothing. -/
theorem execute_ends_of_refusesBeyond (document : Document) (hloops : LoopsWrite document)
    (capacity : Nat) (x : Exchange) (hsink : x.response.sink.RefusesBeyond capacity) :
    ∃ ending, (∀ y, ending ≠ .error .unfinished y) ∧
      ∀ limit, capacity - x.response.sink.bytes.size < limit →
        document.execute limit x = ending :=
  exists_ending (Exchange.fills capacity) hloops ⟨hsink, by omega⟩

/-- A loop that stands still, and writes a text in each round. -/
def standingLoop : Document :=
  [.loop ⟨"i", .number (.int 0), .number (.int 1), some (.number (.int 0))⟩
    [.echo [.string ""], .text "ab"]]

/-- An exchange over an empty sink, whose header is not to be sent any more. -/
def sentExchange (capacity : Nat) : Exchange :=
  { Exchange.ofSink (.bounded capacity) ∅ ∅ ∅ with
    response := ⟨.initial, .bounded capacity, true⟩ }

/-- Where there is room for five bytes, the text is taken twice, and the run fails. -/
theorem execute_ends_standingLoop :
    (∃ y, standingLoop.execute 6 (sentExchange 5) = .error (.failed (.output "sink full")) y ∧
        y.response.sink.bytes = "abab".toUTF8) ∧
      ∀ limit, 5 < limit →
        standingLoop.execute limit (sentExchange 5) = standingLoop.execute 6 (sentExchange 5) := by
  have hloops : LoopsWrite standingLoop := by
    simp [standingLoop, LoopsWrite, Node.LoopsWrite]
  obtain ⟨ending, -, hending⟩ := execute_ends_of_refusesBeyond standingLoop hloops 5
    (sentExchange 5) (Sink.refusesBeyond_bounded 5)
  refine ⟨⟨stateAfter (standingLoop.execute 6 (sentExchange 5)), rfl, rfl⟩, ?_⟩
  intro limit hlimit
  rw [hending limit hlimit, hending 6 (by decide)]

end Document

end PageScript
