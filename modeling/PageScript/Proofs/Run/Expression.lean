import PageScript.Run
import Mathlib.Tactic.Lemma
/-!
# Expressions in postfix order

An echo tag works on a stack of values.  A tag made of expressions, each with its operands written
before it, computes the values of these expressions: each operator and each function finds its own
operands on top, whatever lies below them.

Where an expression fails, so does the tag, with the failure that comes first from left to right.
It may leave operands on the stack then, but the host is as it was, for the elements of an expression
only look parameters up.
-/

namespace PageScript

/-- The operator that stands for an operation. -/
def Operation.symbol : Operation → Char
  | add => '+'
  | subtract => '-'
  | multiply => '*'
  | divide => '/'

lemma Operation.ofChar?_symbol (op : Operation) : ofChar? op.symbol = some op := by
  cases op <;> rfl

/-- An expression. -/
inductive Expression where
  /-- A numeric literal. -/
  | number (n : Number)
  /-- A string literal. -/
  | string (s : String)
  /-- A variable. -/
  | variable (name : String)
  /-- An operation on two operands. -/
  | operation (op : Operation) (left right : Expression)
  /-- The sine of an angle in degrees. -/
  | sine (angle : Expression)
  /-- A number written under a decimal pattern. -/
  | format (number pattern : Expression)
  /-- The parameter of a name, or the value given in its place. -/
  | param (store : Store) (name default : Expression)

namespace Expression

/-- The elements of an expression in postfix order. -/
def elements : Expression → List Element
  | .number n => [.number n]
  | .string s => [.string s]
  | .variable name => [.variable name]
  | .operation op left right => left.elements ++ right.elements ++ [.operator op.symbol]
  | .sine angle => angle.elements ++ [Builtin.sine.element]
  | .format x pattern =>
    x.elements ++ pattern.elements ++ [Builtin.formatDecimal.element]
  | .param store name default =>
    name.elements ++ default.elements ++ [(Builtin.getParam store).element]

/-- The value of an expression, where variables have these bindings and there are these parameters.
The operands come first, from left to right. -/
def value (params : Store → Params) (b : Bindings) : Expression → Except RunError Value
  | .number n => .ok (.number n)
  | .string s => .ok (.string s)
  | .variable name => b.value name
  | .operation op left right => do
    let x ← left.value params b
    let y ← right.value params b
    Value.calculate op (some x) (some y)
  | .sine angle => do
    let x ← angle.value params b
    let degrees ← x.toDouble
    return .double degrees.sineOfDegrees
  | .format x pattern => do
    let x ← x.value params b
    let y ← pattern.value params b
    let n ← x.toDouble
    match Decimal.Pattern.read? y.text.toList with
    | some p => return .string (String.ofList (p.format n))
    | none => throw (.invalidPattern y.text)
  | .param store name default => do
    let x ← name.value params b
    let y ← default.value params b
    return ((params store)[x.text]?).elim y .string

end Expression

/-! ## Actions that leave the host alone -/

variable {σ : Type}

/-- `Desk.Leaves host result r` holds if an action that ends as `r` has left the host as it was, and
the values on the desk that `result` says; or it has failed as `result` says. -/
inductive Desk.Leaves (host : σ) :
    Except RunError (List Value) → EStateM.Result RunError (Desk σ) Unit → Prop
  /-- The action has left these values, top first. -/
  | ok (values : List Value) : Leaves host (.ok values) (.ok () ⟨values, host⟩)
  /-- The action has failed. -/
  | error (e : RunError) (values : List Value) : Leaves host (.error e) (.error e ⟨values, host⟩)

namespace Desk.Leaves

variable {host : σ} {values : List Value}

/-- A value that is there is taken. -/
lemma pop {element : Element} {v : Value} {result : Except RunError (List Value)}
    {k : Value → EStateM RunError (Desk σ) Unit} (h : Leaves host result (k v ⟨values, host⟩)) :
    Leaves host result ((Desk.pop element >>= k) ⟨v :: values, host⟩) :=
  h

lemma ofExcept {α : Type} {result : Except RunError α} {next : α → Except RunError (List Value)}
    {k : α → EStateM RunError (Desk σ) Unit} (h : ∀ a, Leaves host (next a) (k a ⟨values, host⟩)) :
    Leaves host (result >>= next) ((Desk.ofExcept result >>= k) ⟨values, host⟩) := by
  cases result with
  | ok a => exact h a
  | error e => exact .error e values

/-- One action puts a value on top, and another goes on from there. -/
lemma bind {result : Except RunError Value} {next : Value → Except RunError (List Value)}
    {m k : EStateM RunError (Desk σ) Unit}
    (hm : Leaves host (do let v ← result; return v :: values) (m ⟨values, host⟩))
    (hk : ∀ v, Leaves host (next v) (k ⟨v :: values, host⟩)) :
    Leaves host (result >>= next) ((m >>= fun _ => k) ⟨values, host⟩) := by
  simp only [Bind.bind, EStateM.bind]
  generalize m ⟨values, host⟩ = r at hm
  cases result with
  | ok v =>
    cases hm with
    | ok => exact hk v
  | error e =>
    cases hm with
    | error _ rest => exact .error e rest

end Desk.Leaves

/-! ## Elements in a row -/

section Elements

variable [Host σ] {b : Bindings}

lemma Builtin.ofName?_name (f : Builtin) : ofName? f.name = some f := by
  cases f with
  | getParam store => cases store <;> decide
  | setParam memory => cases memory <;> decide
  | deleteParam memory => cases memory <;> decide
  | _ => decide

lemma Builtin.evaluate_element (f : Builtin) :
    (f.element.evaluate b : EStateM RunError (Desk σ) Unit) = f.run := by
  rw [element, Element.evaluate, call, f.ofName?_name]

lemma Element.forM_append (first rest : List Element) :
    ((first ++ rest).forM (evaluate b) : EStateM RunError (Desk σ) Unit) = (do
      first.forM (evaluate b)
      rest.forM (evaluate b)) := by
  simp only [List.forM_eq_forM, List.forM_append]

lemma Element.forM_singleton (e : Element) :
    ([e].forM (evaluate b) : EStateM RunError (Desk σ) Unit) = e.evaluate b := by
  simp only [List.forM_eq_forM, List.forM_cons, List.forM_nil, bind_pure_unit]

end Elements

/-! ## Expressions -/

namespace Expression

variable [Host σ]

/-- The elements of an expression put its value on top of whatever there is. -/
theorem leaves_elements (e : Expression) (b : Bindings) (host : σ) (values : List Value) :
    Desk.Leaves host (do let v ← e.value (Host.params · host) b; return v :: values)
      (e.elements.forM (Element.evaluate b) ⟨values, host⟩) := by
  induction e generalizing values with
  | number n => exact .ok _
  | string s => exact .ok _
  | «variable» name =>
    rw [elements, Element.forM_singleton]
    exact .ofExcept fun v => .ok _
  | operation op left right hleft hright =>
    simp only [elements, value, Element.forM_append, Element.forM_singleton, bind_assoc]
    refine .bind (hleft values) fun x => .bind (hright _) fun y => .pop (.pop ?_)
    rw [op.ofChar?_symbol]
    exact .ofExcept fun v => .ok _
  | sine angle hangle =>
    simp only [elements, value, Element.forM_append, Element.forM_singleton, bind_assoc,
      Builtin.evaluate_element]
    exact .bind (hangle values) fun x => .pop (.ofExcept fun degrees => .ok _)
  | format x pattern hx hpattern =>
    simp only [elements, value, Element.forM_append, Element.forM_singleton, bind_assoc,
      Builtin.evaluate_element]
    refine .bind (hx values) fun x => .bind (hpattern _) fun y => .pop (.pop (.ofExcept fun n => ?_))
    cases Decimal.Pattern.read? y.text.toList with
    | some p => exact .ok _
    | none => exact .error _ _
  | param store name default hname hdefault =>
    simp only [elements, value, Element.forM_append, Element.forM_singleton, bind_assoc,
      Builtin.evaluate_element]
    exact .bind (hname values) fun x => .bind (hdefault _) fun y => .pop (.pop (.ok _))

/-- Expressions one after another put their values on top, that of the last one uppermost. -/
lemma leaves_flatMap (es : List Expression) (b : Bindings) (host : σ) (values : List Value) :
    Desk.Leaves host
      (do let vs ← es.mapM (value (Host.params · host) b); return vs.reverse ++ values)
      ((es.flatMap elements).forM (Element.evaluate b) ⟨values, host⟩) := by
  induction es generalizing values with
  | nil => exact .ok _
  | cons e es ih =>
    simp only [List.flatMap_cons, List.mapM_cons, Element.forM_append, bind_assoc, pure_bind]
    refine .bind (e.leaves_elements b host values) fun v => ?_
    simpa only [List.reverse_cons, List.append_assoc, List.singleton_append] using ih (v :: values)

/-- Elements that make up expressions are computed to their values, and the host is left as it was. -/
lemma compute_flatMap (es : List Expression) (b : Bindings) (host : σ) :
    Run.compute (es.flatMap elements) ⟨b, host⟩ =
      match es.mapM (value (Host.params · host) b) with
      | .ok values => .ok values ⟨b, host⟩
      | .error e => .error (.failed e) ⟨b, host⟩ := by
  have hleaves := leaves_flatMap es b host []
  simp only [Run.compute]
  generalize (es.flatMap elements).forM (Element.evaluate b) (⟨[], host⟩ : Desk σ) = r at hleaves
  cases hvalues : es.mapM (value (Host.params · host) b) with
  | ok values =>
    rw [hvalues] at hleaves
    cases hleaves with
    | ok => simp
  | error e =>
    rw [hvalues] at hleaves
    cases hleaves with
    | error => rfl

/-- An echo tag made of expressions in postfix order writes their values in turn, where operands are
computed from left to right and then what is made of them.  If an expression has no value, the tag
fails as the first such expression does, and the host is as it was, so nothing has been written. -/
theorem echo_flatMap_elements (es : List Expression) (b : Bindings) (host : σ) :
    Run.echo (es.flatMap elements) ⟨b, host⟩ =
      match es.mapM (value (Host.params · host) b) with
      | .ok values => (values.forM fun v => Run.write v.text) ⟨b, host⟩
      | .error e => .error (.failed e) ⟨b, host⟩ := by
  simp only [Run.echo, bind, EStateM.bind, compute_flatMap]
  cases es.mapM (value (Host.params · host) b) with
  | ok values => rfl
  | error e => rfl

/-- The left operand is written first, and the right one is taken from it. -/
example :
    let e : Expression := .operation .subtract (.number (.int 7)) (.string "2")
    e.elements = [.number (.int 7), .string "2", .operator '-'] ∧
      e.value (fun _ => ∅) [] = .ok (.int 5) :=
  ⟨rfl, rfl⟩

end Expression

end PageScript
