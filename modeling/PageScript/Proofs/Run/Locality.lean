import PageScript.Host.Buffer
import PageScript.Host.Exchange
import PageScript.Proofs.Run.StackDepth
/-!
# What functions leave alone

A function works on the values on top.  Unless it is short of them, it does the same whatever lies
below: it ends in the same way, puts the same results on what lies below, and does the same to the
host.

A function takes all its operands before it puts anything back, and changes the host last of all.
So one that fails has taken no more than its operands and put nothing back, and all else is as it
was.
-/

namespace PageScript

variable {σ : Type}

namespace Desk

/-- A desk with more values below those that it holds. -/
def above (below : List Value) (d : Desk σ) : Desk σ := ⟨d.values ++ below, d.host⟩

/-- The end of an action, with more values below those that it leaves. -/
def endAbove {α : Type} (below : List Value) :
    EStateM.Result RunError (Desk σ) α → EStateM.Result RunError (Desk σ) α
  | .ok a d => .ok a (d.above below)
  | .error e d => .error e (d.above below)

/-- `d.IsLeftOf k values` holds if all that is missing of these values are `k` at most, which have
been taken off the top. -/
def IsLeftOf (k : Nat) (values : List Value) (d : Desk σ) : Prop :=
  ∃ taken, values = taken ++ d.values ∧ taken.length ≤ k

lemma IsLeftOf.refl (k : Nat) (d : Desk σ) : d.IsLeftOf k d.values :=
  ⟨[], rfl, Nat.zero_le k⟩

lemma IsLeftOf.cons {k : Nat} {values : List Value} {d : Desk σ} (h : d.IsLeftOf k values)
    (v : Value) : d.IsLeftOf (k + 1) (v :: values) := by
  obtain ⟨taken, rfl, hle⟩ := h
  exact ⟨v :: taken, rfl, Nat.succ_le_succ hle⟩

end Desk

/-! ## Actions that keep to their operands -/

/-- `KeepsTo R k action` holds if the action has to do with the `k` values on top alone: unless it is
short of values it does the same above any others, and if it fails then it has taken no more than
`k`, put nothing back, and left a host that is related to the one before. -/
structure KeepsTo (R : σ → σ → Prop) (k : Nat) (action : EStateM RunError (Desk σ) Unit) :
    Prop where
  above : ∀ d, (∃ e d', action d = .error e d' ∧ e.isUnderflow = true) ∨
    ∀ below, action (d.above below) = Desk.endAbove below (action d)
  left : ∀ d e d', action d = .error e d' → d'.IsLeftOf k d.values ∧ R d.host d'.host

namespace KeepsTo

variable {R : σ → σ → Prop} {k : Nat}

/-- A value that is taken first is one value more. -/
lemma pop (hrefl : ∀ s, R s s) {element : Element}
    {rest : Value → EStateM RunError (Desk σ) Unit} (h : ∀ v, KeepsTo R k (rest v)) :
    KeepsTo R (k + 1) (Desk.pop element >>= rest) where
  above := by
    rintro ⟨values, host⟩
    cases values with
    | nil => exact .inl ⟨.stackUnderflow element, ⟨[], host⟩, rfl, rfl⟩
    | cons v values => exact (h v).above ⟨values, host⟩
  left := by
    rintro ⟨values, host⟩ e d' hend
    cases values with
    | nil =>
      obtain ⟨-, rfl⟩ := EStateM.Result.error.inj hend
      exact ⟨.refl _ _, hrefl host⟩
    | cons v values =>
      obtain ⟨hleft, hhost⟩ := (h v).left ⟨values, host⟩ e d' hend
      exact ⟨hleft.cons v, hhost⟩

lemma throw (hrefl : ∀ s, R s s) (error : RunError) :
    KeepsTo R 0 (MonadExcept.throw error : EStateM RunError (Desk σ) Unit) where
  above d := .inr fun below => rfl
  left := by
    rintro d e d' hend
    obtain ⟨-, rfl⟩ := EStateM.Result.error.inj hend
    exact ⟨.refl _ _, hrefl d.host⟩

lemma ofExcept (hrefl : ∀ s, R s s) {α : Type} {result : Except RunError α}
    {rest : α → EStateM RunError (Desk σ) Unit} (h : ∀ a, KeepsTo R 0 (rest a)) :
    KeepsTo R 0 (Desk.ofExcept result >>= rest) := by
  cases result with
  | ok a => exact h a
  | error error => exact throw hrefl error

/-- What puts values on top and changes the host does so above any values, and does not fail. -/
lemma results (results : List Value) (f : σ → σ) :
    KeepsTo R 0 fun d : Desk σ => .ok () ⟨results ++ d.values, f d.host⟩ where
  above d := .inr fun below => by simp [Desk.above, Desk.endAbove]
  left := by rintro d e d' ⟨⟩

lemma readHost {α : Type} {f : σ → α} {rest : α → EStateM RunError (Desk σ) Unit}
    (h : ∀ a, KeepsTo R k (rest a)) : KeepsTo R k (Desk.readHost f >>= rest) where
  above d := (h (f d.host)).above d
  left d := (h (f d.host)).left d

lemma askHost {action : EStateM HostError σ Unit}
    (h : ∀ s e s', action s = .error e s' → R s s') : KeepsTo R 0 (Desk.askHost action) where
  above := by
    rintro ⟨values, host⟩
    refine .inr fun below => ?_
    simp only [Desk.askHost, Desk.above]
    cases action host <;> rfl
  left := by
    rintro ⟨values, host⟩ e d' hend
    simp only [Desk.askHost] at hend
    cases haction : action host with
    | ok _ s' => simp [haction] at hend
    | error e' s' =>
      simp only [haction, EStateM.Result.error.injEq] at hend
      obtain ⟨-, rfl⟩ := hend
      exact ⟨.refl _ _, h host e' s' haction⟩

end KeepsTo

/-! ## Functions -/

variable [Host σ]

/-- How a host may be changed by what it refuses. -/
structure Host.Refuses (R : σ → σ → Prop) : Prop where
  refl : ∀ s, R s s
  setMime : ∀ mime s e s', Host.setMime mime s = .error e s' → R s s'
  dispatch : ∀ path s e s', Host.dispatch path s = .error e s' → R s s'

namespace Builtin

variable {R : σ → σ → Prop}

lemma keepsTo_run (h : Host.Refuses R) (f : Builtin) : KeepsTo R f.operands f.run := by
  have push (v : Value) : KeepsTo R 0 (Desk.push v) := .results [v] id
  cases f with
  | sine => exact .pop h.refl fun angle => .ofExcept h.refl fun x => push _
  | formatDecimal =>
    refine .pop h.refl fun pattern => .pop h.refl fun number => .ofExcept h.refl fun x => ?_
    cases Decimal.Pattern.read? pattern.text.toList with
    | some p => exact push _
    | none => exact .throw h.refl _
  | duplicate => exact .pop h.refl fun top => .results [top, top] id
  | swap => exact .pop h.refl fun top => .pop h.refl fun second => .results [second, top] id
  | setMimeType => exact .pop h.refl fun mime => .askHost (h.setMime _)
  | getParam store =>
    exact .pop h.refl fun default => .pop h.refl fun name => .readHost fun found => push _
  | setParam memory =>
    exact .pop h.refl fun name => .pop h.refl fun v => .results [] (Host.put memory _ _)
  | deleteParam memory => exact .pop h.refl fun name => .results [] (Host.erase memory _)
  | dispatch => exact .pop h.refl fun path => .askHost (h.dispatch _)

/-- A name that is no function's takes nothing. -/
lemma keepsTo_call (h : Host.Refuses R) (name : String) :
    KeepsTo R (Element.function name).operands (call name) := by
  cases hname : ofName? name with
  | some f => simpa only [call, Element.operands, hname, Option.elim] using keepsTo_run h f
  | none =>
    simp only [call, Element.operands, hname, Option.elim]
    exact .throw h.refl _

end Builtin

lemma Buffer.refuses : Host.Refuses fun b c : Buffer => c = b where
  refl _ := rfl
  setMime := by rintro mime b e c ⟨⟩
  dispatch := by rintro path b e c ⟨⟩

/-- An exchange that refuses something has noted the path that its dispatcher was given, if it was
given one, and nothing else. -/
lemma Exchange.refuses :
    Host.Refuses fun x y : Exchange => y = { x with dispatched := y.dispatched } where
  refl _ := rfl
  setMime := by
    rintro mime ⟨⟨header, sink, committed⟩, request, session, temporary, dispatcher, paths, id⟩ e y h
    cases committed with
    | true =>
      obtain ⟨-, rfl⟩ := EStateM.Result.error.inj h
      rfl
    | false => cases h
  dispatch := by
    intro path x e y h
    simp only [Host.dispatch, Exchange.dispatch] at h
    split at h
    · obtain ⟨-, rfl⟩ := EStateM.Result.error.inj h
      rfl
    · next dispatcher _ =>
      cases hanswer : dispatcher x.dispatched path with
      | ok _ => simp [hanswer] at h
      | error reason =>
        simp only [hanswer, EStateM.Result.error.injEq] at h
        obtain ⟨-, rfl⟩ := h
        rfl

namespace Builtin

/-- A function that finds enough values does the same above any others, on any host: it ends in the
same way, and leaves the same values on top of them and the same host.  One that fails has taken its
operands at most and put nothing back.  A buffer is as it was then, and so is an exchange, with its
response and all parameters, but for the path that its dispatcher was given in vain. -/
theorem call_keeps_to_operands (name : String) (values : List Value) :
    (∀ {σ : Type} [Host σ] (host : σ),
      (∀ e d, call name ⟨values, host⟩ = .error e d → e.isUnderflow = false) →
        ∀ below, call name ⟨values ++ below, host⟩ =
          Desk.endAbove below (call name ⟨values, host⟩)) ∧
    (∀ (b : Buffer) e d, call name ⟨values, b⟩ = .error e d →
      d.IsLeftOf (Element.function name).operands values ∧ d.host = b) ∧
    ∀ (x : Exchange) e d, call name ⟨values, x⟩ = .error e d →
      d.IsLeftOf (Element.function name).operands values ∧
        d.host = { x with dispatched := d.host.dispatched } := by
  refine ⟨?_, fun b => ?_, fun x => ?_⟩
  · intro σ _ host hnot below
    have hkeeps : KeepsTo (fun _ _ : σ => True) (Element.function name).operands (call name) :=
      keepsTo_call ⟨fun _ => trivial, by simp, by simp⟩ name
    obtain ⟨e, d, hend, hunderflow⟩ | habove := hkeeps.above ⟨values, host⟩
    · rw [hnot e d hend] at hunderflow
      cases hunderflow
    · exact habove below
  · exact (keepsTo_call Buffer.refuses name).left ⟨values, b⟩
  · exact (keepsTo_call Exchange.refuses name).left ⟨values, x⟩

/-- A function that is short of values takes what it needs from those below. -/
example (b : Buffer) :
    call "dup" ⟨[], b⟩ = .error (.stackUnderflow (.function "dup")) ⟨[], b⟩ ∧
      call "dup" ⟨[] ++ [.int 1], b⟩ = .ok () ⟨[.int 1, .int 1], b⟩ :=
  ⟨rfl, rfl⟩

end Builtin

end PageScript
