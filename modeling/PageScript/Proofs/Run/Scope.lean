import PageScript.Run
import Mathlib.Tactic.Lemma
/-!
# Running documents in a scope

A second way to run a document, in which no binding ever changes.  Each node runs in a scope, a
map from names to values.  A loop computes its values in the scope that it stands in, and runs
each round in that scope extended by the current value of its variable; when it ends, there is nothing
to take back.
-/

namespace PageScript

/-- What the names in scope stand for. -/
abbrev Scope := String → Option Value

namespace Scope

/-- The value of a variable. -/
def value (name : String) (scope : Scope) : Except RunError Value :=
  match scope name with
  | some v => .ok v
  | none => .error (.undefinedVariable name)

/-- The scope in which a name stands for a value, and all others for what they did. -/
def extend (name : String) (v : Value) (scope : Scope) : Scope :=
  fun n => if n = name then some v else scope n

/-- The value of an element in the opening tag of a loop. -/
def operandValue (scope : Scope) : Element → Except RunError Value
  | .variable name => scope.value name
  | element => .ok element.value

variable {σ : Type} [Host σ]

/-- Goes on with a result, or fails as it does. -/
def ofExcept {α : Type} : Except RunError α → EStateM Stop σ α
  | .ok a => pure a
  | .error e => throw (.failed e)

/-- Writes a text. -/
def write (text : String) : EStateM Stop σ Unit := fun host =>
  match Host.write text host with
  | .ok _ host => .ok () host
  | .error reason host => .error (.failed (.output reason)) host

/-- What an element does in an echo tag. -/
def evaluate (scope : Scope) (element : Element) : EStateM RunError (Desk σ) Unit :=
  match element with
  | .number _ | .string _ => Desk.push element.value
  | .variable name => do
    let v ← Desk.ofExcept (scope.value name)
    Desk.push v
  | .operator c => do
    let right ← Desk.pop element
    let left ← Desk.pop element
    match Operation.ofChar? c with
    | none => throw (.unsupportedOperator c)
    | some op =>
      let v ← Desk.ofExcept (Value.calculate op (some left) (some right))
      Desk.push v
  | .function name => Builtin.call name

/-- Computes the values of an echo tag, and gives them bottom first. -/
def compute (scope : Scope) (elements : List Element) : EStateM Stop σ (List Value) := fun host =>
  match elements.forM scope.evaluate ⟨[], host⟩ with
  | .ok _ desk => .ok desk.values.reverse desk.host
  | .error e desk => .error (.failed e) desk.host

/-- Runs an echo tag. -/
def echo (scope : Scope) (elements : List Element) : EStateM Stop σ Unit := do
  let values ← scope.compute elements
  values.forM fun v => write v.text

/-- Runs the rounds of a loop over `name` from its current value on, at most as many as the limit
says.  The body runs in a scope of its own each time. -/
def rounds (scope : Scope) (name : String) (stop step : Value)
    (body : Scope → EStateM Stop σ Unit) : Nat → Value → EStateM Stop σ Unit
  | 0, _ => throw .unfinished
  | limit + 1, current => do
    let order ← ofExcept (Value.order (some current) (some stop))
    if order = .gt then pure ()
    else do
      body (scope.extend name current)
      let next ← ofExcept (Value.calculate .add (some current) (some step))
      rounds scope name stop step body limit next

/-- Runs a loop with the given body. -/
def loop (scope : Scope) (limit : Nat) (header : LoopHeader) (body : Scope → EStateM Stop σ Unit) :
    EStateM Stop σ Unit := do
  let start ← ofExcept (scope.operandValue header.start)
  let stop ← ofExcept (scope.operandValue header.stop)
  let step ← ofExcept <| match header.step with
    | some element => scope.operandValue element
    | none => .ok (.int 1)
  rounds scope header.name stop step body limit start

end Scope

variable {σ : Type} [Host σ]

mutual

/-- Runs a node in a scope, each of its loops for at most `limit` rounds. -/
def Node.runIn (limit : Nat) (scope : Scope) : Node → EStateM Stop σ Unit
  | .text s => Scope.write s
  | .echo elements => scope.echo elements
  | .loop header body => scope.loop limit header fun inner => Document.runIn limit inner body

/-- Runs nodes one after the other in a scope, each of their loops for at most `limit` rounds. -/
def Document.runIn (limit : Nat) (scope : Scope) : List Node → EStateM Stop σ Unit
  | [] => pure ()
  | node :: rest => do
    node.runIn limit scope
    Document.runIn limit scope rest

end

/-- Nodes after nodes are run one after the other. -/
lemma Document.runIn_append (limit : Nat) (scope : Scope) (first rest : List Node) :
    (Document.runIn limit scope (first ++ rest) : EStateM Stop σ Unit) = (do
      Document.runIn limit scope first
      Document.runIn limit scope rest) := by
  induction first with
  | nil => simp [Document.runIn]
  | cons node first ih => simp [Document.runIn, ih]

end PageScript
