import PageScript.Proofs.Run.Limit
import PageScript.Proofs.Run.StackDepth
/-!
# Runs that run out of room

A loop that writes nothing may go on forever on any host.  But where each loop has a text in its
body, each of its rounds takes some room of the output, and a host that has room for so many bytes
only lets it take no more rounds than that: the run succeeds, or fails, at the latest when its next
text is refused.

So the measure of a run is the room that its host has left.  What a tag computes and asks of the
host does not give any back; a text that is written takes as many bytes as it has; and a round takes
one byte at least.
-/

namespace PageScript

/-! ## Texts of loops -/

/-- How many bytes a node writes by itself: those of a text. -/
def Node.textSize : Node → Nat
  | .text s => s.utf8ByteSize
  | .echo _ | .loop .. => 0

/-- How many bytes the texts among these nodes have, without those in loops. -/
def Document.textSize (nodes : List Node) : Nat := (nodes.map Node.textSize).sum

mutual

/-- Each loop has a text among the nodes of its body, which is not empty. -/
def Node.LoopsWrite : Node → Prop
  | .text _ | .echo _ => True
  | .loop _ body => (∃ s, .text s ∈ body ∧ s ≠ "") ∧ Document.LoopsWrite body

/-- Each loop in these nodes has a text among the nodes of its body, which is not empty. -/
def Document.LoopsWrite : List Node → Prop
  | [] => True
  | node :: rest => node.LoopsWrite ∧ Document.LoopsWrite rest

end

lemma Document.textSize_cons (node : Node) (rest : List Node) :
    textSize (node :: rest) = node.textSize + textSize rest := by
  rw [textSize, List.map_cons, List.sum_cons, textSize]

lemma Document.textSize_pos {nodes : List Node} {s : String} (h : .text s ∈ nodes) (hs : s ≠ "") :
    0 < textSize nodes := by
  have hle := List.le_sum_of_mem (List.mem_map_of_mem (f := Node.textSize) h)
  have hpos : s.utf8ByteSize ≠ 0 := by simpa using hs
  exact Nat.lt_of_lt_of_le (Nat.pos_of_ne_zero hpos) hle

/-! ## Hosts that fill -/

variable {σ : Type}

/-- `Host.Fills P` holds if `P n` says of a host that it has room for `n` bytes at most: a text that
it takes leaves it as much less, and nothing that it is asked for makes room. -/
structure Host.Fills [Host σ] (P : Nat → σ → Prop) : Prop where
  keeps : ∀ n, Host.Keeps (P n)
  write : ∀ {n s t text}, P n s → Host.write text s = .ok () t →
    ∃ k, k + text.utf8ByteSize ≤ n ∧ P k t

/-- How a run may end that has begun with room for `n` bytes: it has taken `cost` of them at least,
or it has failed. -/
inductive Spent {α : Type} (P : Nat → σ → Prop) (cost n : Nat) : EStateM.Result Stop σ α → Prop
  | ok {a : α} {t : σ} {k : Nat} (le : k + cost ≤ n) (room : P k t) : Spent P cost n (.ok a t)
  | failed (e : RunError) (t : σ) : Spent P cost n (.error (.failed e) t)

/-- `Spends P bound cost m` holds if `m` succeeds or fails where there is room for less than `bound`
bytes, and takes `cost` of them at least if it succeeds. -/
def Spends {α : Type} (P : Nat → σ → Prop) (bound cost : Nat) (m : EStateM Stop σ α) : Prop :=
  ∀ n s, n < bound → P n s → Spent P cost n (m s)

namespace Spends

variable {α β : Type} {P : Nat → σ → Prop} {bound cost : Nat} {m : EStateM Stop σ α}

lemma pure (a : α) : Spends P bound 0 (Pure.pure a : EStateM Stop σ α) :=
  fun _ _ _ hs => .ok (Nat.le_refl _) hs

lemma ofExcept (result : Except RunError α) :
    Spends P bound 0 (Scope.ofExcept result : EStateM Stop σ α) := by
  cases result with
  | ok a => exact pure a
  | error e => exact fun _ s _ _ => .failed e s

lemma mono {bound' cost' : Nat} (h : Spends P bound cost m) (hbound : bound' ≤ bound)
    (hcost : cost' ≤ cost) : Spends P bound' cost' m := by
  intro n s hn hs
  have hspent := h n s (Nat.lt_of_lt_of_le hn hbound) hs
  generalize m s = r at hspent
  cases hspent with
  | ok le room => exact .ok (by omega) room
  | failed e t => exact .failed e t

/-- What comes after has so much less room. -/
lemma bind_add {cost' : Nat} {k : α → EStateM Stop σ β} (hm : Spends P bound cost m)
    (hk : ∀ a, Spends P (bound - cost) cost' (k a)) : Spends P bound (cost + cost') (m >>= k) := by
  intro n s hn hs
  have hspent := hm n s hn hs
  simp only [Bind.bind, EStateM.bind]
  generalize m s = r at hspent
  cases hspent with
  | failed e t => exact .failed e t
  | @ok a t n' le room =>
    dsimp only
    have hrest := hk a n' t (by omega) room
    generalize k a t = r at hrest
    cases hrest with
    | ok le' room' => exact .ok (by omega) room'
    | failed e t => exact .failed e t

/-- What takes no room leaves all of it. -/
lemma bind {k : α → EStateM Stop σ β} (hm : Spends P bound 0 m)
    (hk : ∀ a, Spends P bound cost (k a)) : Spends P bound cost (m >>= k) :=
  (bind_add hm hk).mono (Nat.le_refl _) (Nat.le_add_left _ _)

lemma forM {as : List α} {k : α → EStateM Stop σ Unit} (h : ∀ a, Spends P bound 0 (k a)) :
    Spends P bound 0 (as.forM k) := by
  induction as with
  | nil => exact pure ()
  | cons a as ih =>
    simp only [List.forM_eq_forM, List.forM_cons] at ih ⊢
    exact bind (h a) fun _ => ih

variable {scope : Scope} {limit : Nat}

/-- The rounds of a loop come to an end in time, if its body takes a byte each time.  The induction
is on the limit: each round leaves one round less and one byte less. -/
lemma rounds {name : String} {stop step : Value} {body : Scope → EStateM Stop σ Unit}
    (hbody : ∀ inner, Spends P bound 1 (body inner)) (hlimit : limit ≤ bound) (current : Value) :
    Spends P limit 0 (scope.rounds name stop step body limit current) := by
  induction limit generalizing current with
  | zero => exact fun n _ hn => absurd hn (Nat.not_lt_zero n)
  | succ limit ih =>
    unfold Scope.rounds
    refine bind (ofExcept _) fun order => ?_
    split
    · exact pure ()
    have hrounds := bind_add ((hbody (scope.extend name current)).mono hlimit (Nat.le_refl 1))
      fun _ => bind (ofExcept (Value.calculate .add (some current) (some step))) fun next =>
        ih (Nat.le_of_succ_le hlimit) next
    exact hrounds.mono (Nat.le_refl _) (Nat.zero_le _)

lemma loop {header : LoopHeader} {body : Scope → EStateM Stop σ Unit}
    (hbody : ∀ inner, Spends P limit 1 (body inner)) :
    Spends P limit 0 (scope.loop limit header body) := by
  unfold Scope.loop
  refine bind (ofExcept _) fun start => bind (ofExcept _) fun stop => ?_
  refine bind (ofExcept _) fun step => ?_
  exact rounds hbody (Nat.le_refl _) start

variable [Host σ]

lemma write (hP : Host.Fills P) (text : String) :
    Spends P bound text.utf8ByteSize (Scope.write text) := by
  intro n s _ hs
  unfold Scope.write
  cases hwrite : Host.write text s with
  | ok _ t =>
    obtain ⟨k, hle, ht⟩ := hP.write hs hwrite
    exact .ok hle ht
  | error reason t => exact .failed _ t

end Spends

/-! ## Echo tags -/

variable [Host σ]

/-- What an element asks of a host keeps what all requests keep that are not to write. -/
lemma Scope.keeps_evaluate {P : σ → Prop} (hP : Host.Keeps P) (scope : Scope) (element : Element)
    {d : Desk σ} (hd : P d.host) : P (stateAfter (scope.evaluate element d)).host := by
  by_cases h : ∀ name, element ≠ .function name
  · -- What asks nothing of the host agrees with itself on hosts that satisfy `P`.
    have hagrees : DeskAgrees (fun s _ : σ => P s) (fun _ => False) (scope.evaluate element)
        (scope.evaluate element) := .evaluate_of_ne_function scope h
    have hends := hagrees d d ⟨rfl, hd⟩
    generalize scope.evaluate element d = r at hends
    cases hends with
    | ok a hdesk => exact hdesk.related
    | error e hdesk => exact hdesk.related
    | @excused _ e _ hexcused => cases e <;> exact hexcused.elim
  · push Not at h
    obtain ⟨name, rfl⟩ := h
    simp only [evaluate, Builtin.call]
    cases Builtin.ofName? name with
    | none => exact hd
    | some f =>
      have hends := Builtin.takes hP f d hd
      dsimp only
      generalize f.run d = r at hends
      cases hends with
      | short few keeps => exact keeps
      | failed enough because keeps => exact keeps
      | done enough length_eq keeps => exact keeps

lemma Scope.keeps_forM {P : σ → Prop} (hP : Host.Keeps P) (scope : Scope) (elements : List Element)
    {d : Desk σ} (hd : P d.host) :
    P (stateAfter (elements.forM scope.evaluate d)).host := by
  induction elements generalizing d with
  | nil => exact hd
  | cons e rest ih =>
    have hfirst := keeps_evaluate hP scope e hd
    simp only [List.forM_eq_forM, List.forM_cons, bind, EStateM.bind] at ih ⊢
    generalize scope.evaluate e d = r at hfirst ⊢
    cases r with
    | ok _ d' => exact ih hfirst
    | error e d' => exact hfirst

namespace Spends

variable {P : Nat → σ → Prop} {bound : Nat}

/-- An echo tag gives no room back before it writes. -/
lemma compute (hP : Host.Fills P) (scope : Scope) (elements : List Element) :
    Spends P bound 0 (scope.compute elements) := by
  intro n s _ hs
  have hkeeps := scope.keeps_forM (hP.keeps n) elements (d := ⟨[], s⟩) hs
  unfold Scope.compute
  generalize elements.forM scope.evaluate ⟨[], s⟩ = r at hkeeps
  cases r with
  | ok _ d => exact .ok (Nat.le_refl _) hkeeps
  | error e d => exact .failed e _

lemma echo (hP : Host.Fills P) (scope : Scope) (elements : List Element) :
    Spends P bound 0 (scope.echo elements) := by
  refine bind (compute hP scope elements) fun values => forM fun v => ?_
  exact (write hP v.text).mono (Nat.le_refl _) (Nat.zero_le _)

end Spends

/-! ## Documents -/

variable {P : Nat → σ → Prop}

mutual

theorem Node.spends (hP : Host.Fills P) (limit : Nat) (scope : Scope) : (node : Node) →
    node.LoopsWrite → Spends P limit node.textSize (node.runIn limit scope)
  | .text s, _ => .write hP s
  | .echo elements, _ => .echo hP scope elements
  | .loop _ body, ⟨⟨_, hmem, hne⟩, hbody⟩ => .loop fun inner =>
      (Document.spends hP limit inner body hbody).mono (Nat.le_refl _)
        (Document.textSize_pos hmem hne)

/-- Nodes whose loops write succeed or fail before the limit, if that is more than the host has room
for. -/
theorem Document.spends (hP : Host.Fills P) (limit : Nat) (scope : Scope) : (nodes : List Node) →
    Document.LoopsWrite nodes →
    Spends P limit (Document.textSize nodes) (Document.runIn limit scope nodes)
  | [], _ => .pure ()
  | node :: rest, ⟨hnode, hrest⟩ => by
    rw [Document.textSize_cons]
    exact .bind_add (Node.spends hP limit scope node hnode) fun _ =>
      (Document.spends hP limit scope rest hrest).mono (Nat.sub_le _ _) (Nat.le_refl _)

end

/-- A document whose loops write comes to an end on a host with room for `n` bytes, and to the same
end whatever the limit is, if it is greater than `n`. -/
theorem Document.exists_ending (hP : Host.Fills P) {document : Document}
    (h : LoopsWrite document) {n : Nat} {host : σ} (hroom : P n host) :
    ∃ ending, (∀ t, ending ≠ .error .unfinished t) ∧
      ∀ limit, n < limit → document.execute limit host = ending := by
  have hspent := Document.spends hP (n + 1) (Bindings.scope []) document h n host
    (Nat.lt_succ_self n) hroom
  rw [← execute_eq_runIn] at hspent
  have hends : ∀ t, document.execute (n + 1) host ≠ .error .unfinished t := by
    intro t ht
    rw [ht] at hspent
    cases hspent
  -- What is an ending under one limit is the ending under all larger ones.
  refine ⟨_, hends, fun limit hlimit => ?_⟩
  rw [execute_eq_runIn] at hends ⊢
  rcases Document.goesOn hlimit (Bindings.scope []) document host with ⟨t, hstop⟩ | hsame
  · exact absurd hstop (hends t)
  · rw [hsame, execute_eq_runIn]

end PageScript
