import PageScript.Host.Buffer
import PageScript.Proofs.Run.Limit
import Mathlib.Data.List.Basic
/-!
# Loops unroll

A loop does what copies of its body do, one for each round, in which the value of the loop variable
in that round stands as a literal wherever the variable is free.  A loop over the same variable
hides it from its body, but not from the values in its opening tag.
-/

namespace PageScript

/-! ## Literals in place of a variable -/

/-- The literal for a value. -/
def Value.literal : Value → Element
  | .number n => .number n
  | .string s => .string s

/-- Puts the literal for a value in place of a variable. -/
def Element.substitute (name : String) (v : Value) : Element → Element
  | .variable n => if n = name then v.literal else .variable n
  | e => e

/-- Puts the literal for a value in place of a variable in the values of an opening tag. -/
def LoopHeader.substitute (name : String) (v : Value) (h : LoopHeader) : LoopHeader :=
  { h with
    start := h.start.substitute name v
    stop := h.stop.substitute name v
    step := h.step.map (Element.substitute name v) }

mutual

/-- Puts the literal for a value in place of a variable wherever it is free in a node. -/
def Node.substitute (name : String) (v : Value) : Node → Node
  | .text s => .text s
  | .echo elements => .echo (elements.map (Element.substitute name v))
  | .loop header body =>
    .loop (header.substitute name v)
      (if header.name = name then body else Document.substitute name v body)

/-- Puts the literal for a value in place of a variable wherever it is free in nodes. -/
def Document.substitute (name : String) (v : Value) : List Node → List Node
  | [] => []
  | node :: rest => node.substitute name v :: Document.substitute name v rest

end

/-! ## Scopes and literals -/

namespace Scope

variable {name : String} {v : Value} {scope : Scope}

lemma value_extend (n : String) :
    (scope.extend name v).value n = if n = name then .ok v else scope.value n := by
  unfold value extend
  by_cases h : n = name
  · simp [h]
  · simp [h]

/-- An inner loop over the same variable hides it. -/
lemma extend_extend (w : Value) : (scope.extend name v).extend name w = scope.extend name w := by
  funext n
  unfold extend
  split <;> rfl

/-- Loops over different variables do not meet. -/
lemma extend_comm {other : String} (h : other ≠ name) (w : Value) :
    (scope.extend name v).extend other w = (scope.extend other w).extend name v := by
  funext n
  unfold extend
  by_cases hother : n = other
  · rw [if_pos hother, if_neg (hother ▸ h), if_pos hother]
  · rw [if_neg hother, if_neg hother]

lemma operandValue_substitute (e : Element) :
    scope.operandValue (e.substitute name v) = (scope.extend name v).operandValue e := by
  cases e with
  | «variable» n =>
    rw [Element.substitute, operandValue, value_extend]
    split
    · cases v <;> rfl
    · rfl
  | number | string | function | operator => rfl

variable {σ : Type}

/-- The rounds of a loop see the scope around it through their bodies only. -/
lemma rounds_congr {scope' : Scope} {n : String} {stop step : Value}
    {body body' : Scope → EStateM Stop σ Unit}
    (h : ∀ current, body (scope.extend n current) = body' (scope'.extend n current)) (limit : Nat)
    (current : Value) :
    scope.rounds n stop step body limit current =
      scope'.rounds n stop step body' limit current := by
  induction limit generalizing current with
  | zero => rfl
  | succ limit ih =>
    have hih : scope.rounds n stop step body limit = scope'.rounds n stop step body' limit :=
      funext ih
    unfold rounds
    rw [h, hih]

/-- A loop computes its values in the scope that it stands in, so literals may take the place of a
variable there. -/
lemma loop_substitute {limit : Nat} {header : LoopHeader} {body body' : Scope → EStateM Stop σ Unit}
    (h : ∀ current, body (scope.extend header.name current) =
      body' ((scope.extend name v).extend header.name current)) :
    scope.loop limit (header.substitute name v) body =
      (scope.extend name v).loop limit header body' := by
  obtain ⟨n, start, stop, step⟩ := header
  have hrounds (stop step : Value) :
      scope.rounds n stop step body limit = (scope.extend name v).rounds n stop step body' limit :=
    funext (rounds_congr h limit)
  unfold loop LoopHeader.substitute
  cases step with
  | none => simp only [Option.map_none, operandValue_substitute, hrounds]
  | some step => simp only [Option.map_some, operandValue_substitute, hrounds]

variable [Host σ]

lemma evaluate_substitute (e : Element) :
    (scope.evaluate (e.substitute name v) : EStateM RunError (Desk σ) Unit) =
      (scope.extend name v).evaluate e := by
  cases e with
  | «variable» n =>
    rw [Element.substitute, evaluate, value_extend]
    split
    · cases v <;> rfl
    · rfl
  | number | string | function | operator => rfl

lemma echo_substitute (elements : List Element) :
    (scope.echo (elements.map (Element.substitute name v)) : EStateM Stop σ Unit) =
      (scope.extend name v).echo elements := by
  have hcompute : (scope.compute (elements.map (Element.substitute name v)) :
      EStateM Stop σ (List Value)) = (scope.extend name v).compute elements := by
    funext host
    have hevaluate : (fun e : Element => (scope.evaluate (e.substitute name v) :
        EStateM RunError (Desk σ) Unit)) = (scope.extend name v).evaluate :=
      funext evaluate_substitute
    simp only [compute, List.forM_eq_forM, List.forM_map, hevaluate]
  rw [echo, hcompute, echo]

end Scope

variable {σ : Type} [Host σ]

/-! ## Substitution -/

mutual

theorem Node.runIn_substitute (limit : Nat) (name : String) (v : Value) (scope : Scope) :
    (node : Node) → (Node.runIn limit scope (node.substitute name v) : EStateM Stop σ Unit) =
      node.runIn limit (scope.extend name v)
  | .text s => rfl
  | .echo elements => by
    simp only [Node.substitute, Node.runIn]
    exact Scope.echo_substitute elements
  | .loop header body => by
    simp only [Node.substitute, Node.runIn]
    refine Scope.loop_substitute fun current => ?_
    by_cases h : header.name = name
    · rw [if_pos h, h, Scope.extend_extend]
    · rw [if_neg h, Scope.extend_comm h]
      exact Document.runIn_substitute limit name v _ body

/-- Nodes do the same whether a variable is in scope with a value or its literal stands in its
place. -/
theorem Document.runIn_substitute (limit : Nat) (name : String) (v : Value) (scope : Scope) :
    (nodes : List Node) →
      (Document.runIn limit scope (Document.substitute name v nodes) : EStateM Stop σ Unit) =
        Document.runIn limit (scope.extend name v) nodes
  | [] => rfl
  | node :: rest => by
    simp only [Document.substitute, Document.runIn]
    rw [Node.runIn_substitute limit name v scope node,
      Document.runIn_substitute limit name v scope rest]

end

/-! ## Unrolling -/

/-- The value that a step is computed to; without one it is 1. -/
def LoopHeader.stepValue (b : Bindings) (h : LoopHeader) : Except RunError Value :=
  match h.step with
  | some element => element.operandValue b
  | none => .ok (.int 1)

/-- `Counts stop step v vs` holds if a loop variable that begins as `v` goes through the values `vs`
and is then greater than the limit. -/
inductive Counts (stop step : Value) : Value → List Value → Prop
  /-- The variable is greater than the limit at once. -/
  | done {v : Value} (hlast : Value.order (some v) (some stop) = .ok .gt) : Counts stop step v []
  /-- The variable is not greater, and counts on from where a step takes it. -/
  | round {v next : Value} {vs : List Value} {order : Ordering}
      (horder : Value.order (some v) (some stop) = .ok order) (hround : order ≠ .gt)
      (hnext : Value.calculate .add (some v) (some step) = .ok next)
      (rest : Counts stop step next vs) : Counts stop step v (v :: vs)

/-- The copies of a body, one for each value of the loop variable. -/
def Document.unroll (name : String) (body : List Node) (vs : List Value) : List Node :=
  vs.flatMap fun v => Document.substitute name v body

/-- The rounds of a loop do what the copies of its body do, if the limit is greater than their
number.  The induction is on the values that the variable goes through. -/
lemma Counts.rounds_eq {stop step v : Value} {vs : List Value} (h : Counts stop step v vs)
    {scope : Scope} {name : String} {body : List Node} {limit rounds : Nat}
    (hrounds : vs.length < rounds) :
    (scope.rounds name stop step (fun inner => Document.runIn limit inner body) rounds v :
        EStateM Stop σ Unit) =
      Document.runIn limit scope (Document.unroll name body vs) := by
  induction h generalizing rounds with
  | done hlast =>
    obtain ⟨rounds, rfl⟩ : ∃ n, rounds = n + 1 := ⟨rounds - 1, by omega⟩
    simp [Scope.rounds, Scope.ofExcept, hlast, Document.unroll, Document.runIn]
  | @round v next vs order horder hround hnext rest ih =>
    obtain ⟨rounds, rfl⟩ : ∃ n, rounds = n + 1 := ⟨rounds - 1, by omega⟩
    have hcopies : Document.unroll name body (v :: vs) =
        Document.substitute name v body ++ Document.unroll name body vs := List.flatMap_cons
    rw [hcopies, Document.runIn_append, Document.runIn_substitute, ← ih (by simpa using hrounds)]
    simp only [Scope.rounds, Scope.ofExcept, horder, hnext, pure_bind, if_neg hround]

/-- A variable that a step can be added to has a number, so it compares with every limit that has
one. -/
lemma Value.order_eq_ok {v w stop step next : Value} {order : Ordering}
    (hw : Value.order (some w) (some stop) = .ok order)
    (hnext : Value.calculate .add (some v) (some step) = .ok next) :
    ∃ order, Value.order (some v) (some stop) = .ok order := by
  cases ha : coerce (some v) with
  | error e => simp [calculate, ha, bind, Except.bind] at hnext
  | ok a =>
    cases hb : coerce (some stop) with
    | error e =>
      cases hc : coerce (some w) <;> simp [Value.order, hb, hc, bind, Except.bind] at hw
    | ok b => exact ⟨a.order b, by rw [Value.order, ha, hb]; rfl⟩

/-- The values of a loop variable from the `k`-th on, if the limit is first passed by the `n`-th. -/
lemma counts_of_forall {stop step : Value} {v : Nat → Value} {n : Nat}
    (hnext : ∀ k < n, Value.calculate .add (some (v k)) (some step) = .ok (v (k + 1)))
    (hrounds : ∀ k < n, Value.order (some (v k)) (some stop) ≠ .ok .gt)
    (hlast : Value.order (some (v n)) (some stop) = .ok .gt) :
    Counts stop step (v 0) ((List.range n).map v) := by
  induction n generalizing v with
  | zero => exact .done hlast
  | succ n ih =>
    obtain ⟨order, horder⟩ := Value.order_eq_ok hlast (hnext 0 (by omega))
    have hround : order ≠ .gt := by
      rintro rfl
      exact hrounds 0 (by omega) horder
    have rest := @ih (fun k => v (k + 1)) (fun k hk => hnext (k + 1) (by omega))
      (fun k hk => hrounds (k + 1) (by omega)) hlast
    rw [List.range_succ_eq_map, List.map_cons, List.map_map]
    exact .round horder hround (hnext 0 (by omega)) rest

namespace Document

variable {header : LoopHeader} {body : List Node} {b : Bindings} {start stop step : Value}
  {vs : List Value}

/-- A loop does what the copies of its body do in scope, if the limit is greater than their
number. -/
lemma runIn_unroll (hstart : header.start.operandValue b = .ok start)
    (hstop : header.stop.operandValue b = .ok stop) (hstep : header.stepValue b = .ok step)
    (hcounts : Counts stop step start vs) {limit : Nat} (hlimit : vs.length < limit) :
    (Document.runIn limit b.scope [.loop header body] : EStateM Stop σ Unit) =
      Document.runIn limit b.scope (unroll header.name body vs) := by
  obtain ⟨name, first, last, element⟩ := header
  rw [Element.operandValue_eq] at hstart hstop
  rw [← hcounts.rounds_eq hlimit]
  cases element with
  | none =>
    obtain rfl : Value.int 1 = step := Except.ok.inj hstep
    simp only [Document.runIn, Node.runIn, Scope.loop, hstart, hstop, Scope.ofExcept, pure_bind,
      bind_pure_unit]
  | some element =>
    have hstep' : b.scope.operandValue element = .ok step := by
      rw [← Element.operandValue_eq]
      exact hstep
    simp only [Document.runIn, Node.runIn, Scope.loop, hstart, hstop, hstep', Scope.ofExcept,
      pure_bind, bind_pure_unit]

/-- Let `v 0` be the first value of a loop variable and `v (k + 1)` be what a step makes of `v k`.
If `v n` is the first of them that is greater than the limit of the loop, then the loop does what
the copies of its body for `v 0` to `v (n - 1)` do one after the other: it ends as they do, with the
same error if one fails, leaves the same host and, if it succeeds, the same bindings.  It
also does so where a run is stopped, once it may take more than `n` rounds. -/
theorem ends_loop_iff_ends_unrolled {v : Nat → Value} {n : Nat}
    (hstart : header.start.operandValue b = .ok (v 0))
    (hstop : header.stop.operandValue b = .ok stop) (hstep : header.stepValue b = .ok step)
    (hnext : ∀ k < n, Value.calculate .add (some (v k)) (some step) = .ok (v (k + 1)))
    (hrounds : ∀ k < n, Value.order (some (v k)) (some stop) ≠ .ok .gt)
    (hlast : Value.order (some (v n)) (some stop) = .ok .gt) (host : σ) :
    let copies := (List.range n).flatMap fun k => substitute header.name (v k) body
    (∀ limit > n, Run.ending (Document.run limit [.loop header body] ⟨b, host⟩) =
        Run.ending (Document.run limit copies ⟨b, host⟩)) ∧
      ∀ ending, Ends [.loop header body] b host ending ↔ Ends copies b host ending := by
  intro copies
  have hcopies : copies = unroll header.name body ((List.range n).map v) := by
    rw [unroll, List.flatMap_map]
  have hcounts := counts_of_forall hnext hrounds hlast
  have hsame : ∀ limit ≥ n + 1, Run.ending (Document.run limit [.loop header body] ⟨b, host⟩) =
      Run.ending (Document.run limit copies ⟨b, host⟩) := by
    intro limit hlimit
    have hlength : ((List.range n).map v).length < limit := by
      rw [List.length_map, List.length_range]
      exact hlimit
    rw [ending_run, ending_run, hcopies, runIn_unroll hstart hstop hstep hcounts hlength]
  refine ⟨hsame, fun ending => ⟨fun h => h.of_forall_ge (n + 1) hsame, fun h => ?_⟩⟩
  exact h.of_forall_ge (n + 1) fun limit hlimit => (hsame limit hlimit).symm

/-- A loop that begins with a string, around a loop over the same variable and an echo tag. -/
def shadowedHeader : LoopHeader := ⟨"i", .string "1", .number (.int 2), none⟩

/-- The inner loop reads the outer variable in its opening tag and hides it from its body. -/
def shadowedBody : List Node :=
  [.loop ⟨"i", .variable "i", .number (.int 3), some (.variable "i")⟩ [.echo [.variable "i"]],
    .echo [.variable "i", .variable "i", .operator '*']]

/-- The values of the outer variable. -/
def shadowedValue : Nat → Value
  | 0 => .string "1"
  | k + 1 => .int (.ofNat (k + 2))

theorem ends_shadowedLoop_iff :
    (∀ k < 2, Value.calculate .add (some (shadowedValue k)) (some (.int 1)) =
        .ok (shadowedValue (k + 1))) ∧
      (∀ k < 2, Value.order (some (shadowedValue k)) (some (.int 2)) ≠ .ok .gt) ∧
      Value.order (some (shadowedValue 2)) (some (.int 2)) = .ok .gt ∧
      ∀ ending : EStateM.Result Stop Buffer Bindings,
        Ends [.loop shadowedHeader shadowedBody] [("i", none)] (.ofParams ∅ ∅ ∅) ending ↔
          Ends (substitute "i" (.string "1") shadowedBody ++ substitute "i" (.int 2) shadowedBody)
            [("i", none)] (.ofParams ∅ ∅ ∅) ending := by
  have hnext : ∀ k < 2, Value.calculate .add (some (shadowedValue k)) (some (.int 1)) =
      .ok (shadowedValue (k + 1)) := by decide
  have hrounds : ∀ k < 2, Value.order (some (shadowedValue k)) (some (.int 2)) ≠ .ok .gt := by
    decide
  have hlast : Value.order (some (shadowedValue 2)) (some (.int 2)) = .ok .gt := by decide
  refine ⟨hnext, hrounds, hlast, ?_⟩
  have hunrolled := @ends_loop_iff_ends_unrolled Buffer _ shadowedHeader shadowedBody [("i", none)]
    (.int 2) (.int 1) shadowedValue 2 rfl rfl rfl hnext hrounds hlast (.ofParams ∅ ∅ ∅)
  exact hunrolled.2

end Document

end PageScript
