import PageScript.RunError
/-!
# Arithmetic on values

Both operands are taken as numbers first, the left one before the right one.  Two integers give
an integer modulo `2 ^ 64`, and division cuts off toward zero; if one of them is a double, both are
taken as doubles and so is the result.
-/

namespace PageScript

/-- The four operations of arithmetic. -/
inductive Operation where
  | add
  | subtract
  | multiply
  | divide
deriving DecidableEq, Repr

namespace Operation

/-- The operation that an operator stands for. -/
def ofChar? : Char → Option Operation
  | '+' => some add
  | '-' => some subtract
  | '*' => some multiply
  | '/' => some divide
  | _ => none

/-- The operation on integers: there is no quotient by zero. -/
def onInts : Operation → Int64 → Int64 → Except RunError Int64
  | add, a, b => .ok (a + b)
  | subtract, a, b => .ok (a - b)
  | multiply, a, b => .ok (a * b)
  | divide, a, b => if b = 0 then .error .divisionByZero else .ok (a / b)

/-- The operation on doubles. -/
def onDoubles : Operation → Double → Double → Double
  | add, a, b => a + b
  | subtract, a, b => a - b
  | multiply, a, b => a * b
  | divide, a, b => a / b

/-- The operation on numbers. -/
def onNumbers (op : Operation) : Number → Number → Except RunError Number
  | .int a, .int b => (op.onInts a b).map .int
  | a, b => .ok (.double (op.onDoubles a.toDouble b.toDouble))

end Operation

namespace Value

/-- The number that a value stands for.  An absent value stands for the integer 0; a string that
is no numeral is named in the failure. -/
def coerce : Option Value → Except RunError Number
  | none => .ok (.int 0)
  | some (.number n) => .ok n
  | some (.string s) =>
    match Number.ofText? s.toList with
    | some n => .ok n
    | none => .error (.notANumber s)

/-- The number that a value stands for, as a double. -/
def toDouble (v : Value) : Except RunError Double :=
  (coerce (some v)).map Number.toDouble

/-- The result of an operation on two values, either of which may be absent. -/
def calculate (op : Operation) (left right : Option Value) : Except RunError Value := do
  let a ← coerce left
  let b ← coerce right
  let n ← op.onNumbers a b
  return .number n

/-- The order of the numbers that two values stand for. -/
def order (left right : Option Value) : Except RunError Ordering := do
  let a ← coerce left
  let b ← coerce right
  return a.order b

end Value

/-- A place for a value, which may be empty. -/
abbrev Slot := Option Value

namespace Slot

/-- The value in a slot; an empty slot reads as the integer 0. -/
def value (s : Slot) : Value := s.getD (.int 0)

/-- Works an operation into a slot.  If it fails, the slot keeps what it held. -/
def apply (op : Operation) (operand : Option Value) (s : Slot) : Except RunError Unit × Slot :=
  match Value.calculate op s operand with
  | .ok v => (.ok (), some v)
  | .error e => (.error e, s)

end Slot

end PageScript
