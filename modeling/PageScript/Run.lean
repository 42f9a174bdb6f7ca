import PageScript.Bindings
import PageScript.Builtin
import PageScript.Document
/-!
# Running documents

A document runs against a host, one node after the other.  A text is written as it is.  An echo
tag computes values in postfix order and then writes them, bottom first.  A loop binds
its variable, and runs its body as long as the variable is not greater than the limit.

A loop may go on forever.  So a run is given a limit on the rounds of each loop; a run that
meets it ends unfinished, which is neither success nor failure.
-/

namespace PageScript

/-- Why a run stopped early. -/
inductive Stop where
  /-- It failed. -/
  | failed (error : RunError)
  /-- A loop took too many rounds. -/
  | unfinished
deriving DecidableEq

/-- The state of a run: the bindings in force, and the host. -/
structure Run (σ : Type) where
  /-- The bindings in force. -/
  bindings : Bindings
  /-- The host. -/
  host : σ

namespace Run

variable {σ : Type}

/-- Writes a text. -/
def write [Host σ] (text : String) : EStateM Stop (Run σ) Unit := fun
  | ⟨bindings, host⟩ =>
    match Host.write text host with
    | .ok _ host => .ok () ⟨bindings, host⟩
    | .error reason host => .error (.failed (.output reason)) ⟨bindings, host⟩

/-- Goes on with a result, or fails as it does. -/
def ofExcept {α : Type} : Except RunError α → EStateM Stop (Run σ) α
  | .ok a => pure a
  | .error e => throw (.failed e)

/-- A result that the bindings in force decide. -/
def readBindings {α : Type} (f : Bindings → Except RunError α) : EStateM Stop (Run σ) α := fun r =>
  match f r.bindings with
  | .ok a => .ok a r
  | .error e => .error (.failed e) r

/-- Changes the bindings in force, and goes on with the result or fails as it does. -/
def changeBindings {α : Type} (f : Bindings → Except RunError α × Bindings) :
    EStateM Stop (Run σ) α := fun
  | ⟨bindings, host⟩ =>
    match f bindings with
    | (.ok a, bindings) => .ok a ⟨bindings, host⟩
    | (.error e, bindings) => .error (.failed e) ⟨bindings, host⟩

end Run

variable {σ : Type} [Host σ]

namespace Element

/-- What an element does in an echo tag, under the bindings in force. -/
def evaluate (bindings : Bindings) (element : Element) : EStateM RunError (Desk σ) Unit :=
  match element with
  | .number _ | .string _ => Desk.push element.value
  | .variable name => do
    let v ← Desk.ofExcept (bindings.value name)
    Desk.push v
  | .operator c => do
    let right ← Desk.pop element
    let left ← Desk.pop element
    match Operation.ofChar? c with
    | none => throw (.unsupportedOperator c)
    | some op =>
      let v ← Desk.ofExcept (Value.calculate op (some left) (some right))
      Desk.push v
  | .function name => Builtin.call name

/-- The value of an element in the opening tag of a loop. -/
def operandValue (bindings : Bindings) : Element → Except RunError Value
  | .variable name => bindings.value name
  | element => .ok element.value

end Element

namespace Run

/-- Computes the values of an echo tag, and gives them bottom first. -/
def compute (elements : List Element) : EStateM Stop (Run σ) (List Value) := fun
  | ⟨bindings, host⟩ =>
    match elements.forM (Element.evaluate bindings) ⟨[], host⟩ with
    | .ok _ desk => .ok desk.values.reverse ⟨bindings, desk.host⟩
    | .error e desk => .error (.failed e) ⟨bindings, desk.host⟩

/-- Runs an echo tag. -/
def echo (elements : List Element) : EStateM Stop (Run σ) Unit := do
  let values ← compute elements
  values.forM fun v => write v.text

/-- Runs the rounds of a loop over `name`, at most as many as the last argument says.  Each round
begins with a comparison and ends with a step. -/
def rounds (name : String) (stop step : Value) (body : EStateM Stop (Run σ) Unit) :
    Nat → EStateM Stop (Run σ) Unit
  | 0 => throw .unfinished
  | limit + 1 => do
    -- The comparison that ends the loop counts too: `n` rounds need a limit of `n + 1`.
    let order ← readBindings fun bindings => do
      let current ← bindings.peek name
      Value.order current (some stop)
    if order = .gt then pure ()
    else do
      body
      changeBindings (Bindings.apply name .add (some step))
      rounds name stop step body limit

/-- Runs a loop with the given body.  Its values are computed before its variable is bound. -/
def loop (limit : Nat) (header : LoopHeader) (body : EStateM Stop (Run σ) Unit) :
    EStateM Stop (Run σ) Unit := do
  let start ← readBindings header.start.operandValue
  let stop ← readBindings header.stop.operandValue
  let step ← readBindings fun bindings =>
    match header.step with
    | some element => element.operandValue bindings
    | none => .ok (.int 1)
  changeBindings fun bindings => (.ok (), bindings.push header.name (some start))
  rounds header.name stop step body limit
  discard <| changeBindings (Bindings.pop header.name)

end Run

mutual

/-- Runs a node, each of its loops for at most `limit` rounds. -/
def Node.run (limit : Nat) : Node → EStateM Stop (Run σ) Unit
  | .text s => Run.write s
  | .echo elements => Run.echo elements
  | .loop header body => Run.loop limit header (Document.run limit body)

/-- Runs nodes one after the other, each of their loops for at most `limit` rounds. -/
def Document.run (limit : Nat) : List Node → EStateM Stop (Run σ) Unit
  | [] => pure ()
  | node :: rest => do
    node.run limit
    Document.run limit rest

end

/-- Runs a document from its start. -/
def Document.execute (limit : Nat) (document : Document) : EStateM Stop σ Unit := fun host =>
  match Document.run limit document ⟨[], host⟩ with
  | .ok _ r => .ok () r.host
  | .error stop r => .error stop r.host

end PageScript
