import PageScript.Host
import PageScript.Value.Arithmetic
import PageScript.Decimal.Layout
/-!
# Functions of echo tags

The functions work on the values that an echo tag has computed so far, and on the host.  Each takes
its operands off the top, last one first, and puts its results back.  A function that fails
leaves what it has not taken yet.
-/

namespace PageScript

/-- The values that an echo tag has computed so far, and the host. -/
structure Desk (σ : Type) where
  /-- The values, top first. -/
  values : List Value
  /-- The host. -/
  host : σ

namespace Desk

variable {σ : Type}

/-- Puts a value on top. -/
def push (v : Value) : EStateM RunError (Desk σ) Unit := fun
  | ⟨values, host⟩ => .ok () ⟨v :: values, host⟩

/-- Takes the top value; if there is none, the element that asks for it is to blame. -/
def pop (element : Element) : EStateM RunError (Desk σ) Value := fun
  | ⟨[], host⟩ => .error (.stackUnderflow element) ⟨[], host⟩
  | ⟨v :: values, host⟩ => .ok v ⟨values, host⟩

/-- Changes the host. -/
def modifyHost (f : σ → σ) : EStateM RunError (Desk σ) Unit := fun
  | ⟨values, host⟩ => .ok () ⟨values, f host⟩

/-- What the host shows. -/
def readHost {α : Type} (f : σ → α) : EStateM RunError (Desk σ) α := fun d => .ok (f d.host) d

/-- Asks the host for something that it may refuse. -/
def askHost (action : EStateM HostError σ Unit) : EStateM RunError (Desk σ) Unit := fun
  | ⟨values, host⟩ =>
    match action host with
    | .ok _ host => .ok () ⟨values, host⟩
    | .error e host => .error (.host e) ⟨values, host⟩

/-- Goes on with a result, or fails as it does. -/
def ofExcept {α : Type} : Except RunError α → EStateM RunError (Desk σ) α
  | .ok a => pure a
  | .error e => throw e

end Desk

/-- The functions of echo tags. -/
inductive Builtin where
  /-- The sine of an angle in degrees. -/
  | sine
  /-- A number written under a decimal pattern. -/
  | formatDecimal
  /-- The top value, twice. -/
  | duplicate
  /-- The two top values, exchanged. -/
  | swap
  /-- Sets the media type. -/
  | setMimeType
  /-- The parameter of a name, or the value given in its place. -/
  | getParam (store : Store)
  /-- Sets the parameter of a name. -/
  | setParam (memory : Memory)
  /-- Removes the parameter of a name. -/
  | deleteParam (memory : Memory)
  /-- Hands the request on to another page. -/
  | dispatch
deriving DecidableEq, Repr

namespace Builtin

/-- The name of a function. -/
def name : Builtin → String
  | sine => "sin"
  | formatDecimal => "decfmt"
  | duplicate => "dup"
  | swap => "swap"
  | setMimeType => "setMimeType"
  | getParam .request => "paramGet"
  | getParam .persistent => "pparamGet"
  | getParam .temporary => "tparamGet"
  | setParam .persistent => "pparamSet"
  | setParam .temporary => "tparamSet"
  | deleteParam .persistent => "pparamDel"
  | deleteParam .temporary => "tparamDel"
  | dispatch => "dispatch"

/-- All functions. -/
def all : List Builtin :=
  [sine, formatDecimal, duplicate, swap, setMimeType, getParam .request, getParam .persistent,
    getParam .temporary, setParam .persistent, setParam .temporary, deleteParam .persistent,
    deleteParam .temporary, dispatch]

/-- The function of a name. -/
def ofName? (name : String) : Option Builtin := all.find? fun f => f.name == name

/-- The element that stands for a function. -/
def element (f : Builtin) : Element := .function f.name

/-- How many operands a function takes. -/
def operands : Builtin → Nat
  | sine | duplicate | setMimeType | deleteParam _ | dispatch => 1
  | formatDecimal | swap | getParam _ | setParam _ => 2

/-- How many results a function gives. -/
def results : Builtin → Nat
  | setMimeType | setParam _ | deleteParam _ | dispatch => 0
  | sine | formatDecimal | getParam _ => 1
  | duplicate | swap => 2

variable {σ : Type} [Host σ]

/-- What a function does. -/
def run (f : Builtin) : EStateM RunError (Desk σ) Unit :=
  match f with
  | sine => do
    let angle ← Desk.pop f.element
    let angle ← Desk.ofExcept angle.toDouble
    Desk.push (.double angle.sineOfDegrees)
  | formatDecimal => do
    let pattern ← Desk.pop f.element
    let number ← Desk.pop f.element
    let number ← Desk.ofExcept number.toDouble
    match Decimal.Pattern.read? pattern.text.toList with
    | some p => Desk.push (.string (String.ofList (p.format number)))
    | none => throw (.invalidPattern pattern.text)
  | duplicate => do
    let top ← Desk.pop f.element
    Desk.push top
    Desk.push top
  | swap => do
    let top ← Desk.pop f.element
    let second ← Desk.pop f.element
    Desk.push top
    Desk.push second
  | setMimeType => do
    let mime ← Desk.pop f.element
    Desk.askHost (Host.setMime mime.text)
  | getParam store => do
    let default ← Desk.pop f.element
    let name ← Desk.pop f.element
    let found ← Desk.readHost (Host.get? store name.text)
    Desk.push (found.elim default .string)
  | setParam memory => do
    let name ← Desk.pop f.element
    let value ← Desk.pop f.element
    Desk.modifyHost (Host.put memory name.text value.text)
  | deleteParam memory => do
    let name ← Desk.pop f.element
    Desk.modifyHost (Host.erase memory name.text)
  | dispatch => do
    let path ← Desk.pop f.element
    Desk.askHost (Host.dispatch path.text)

/-- Calls the function of a name. -/
def call (name : String) : EStateM RunError (Desk σ) Unit :=
  match ofName? name with
  | some f => f.run
  | none => throw (.unknownFunction name)

end Builtin

end PageScript
