import PageScript.Decimal.Place
/-!
# Numbers

A number is an integer of 64 bits, whose arithmetic wraps, or a double.  Two integers compare
exactly; otherwise both numbers are taken as doubles and compare in their total order.
-/

namespace PageScript

/-- An integer or a double. -/
inductive Number where
  /-- An integer of 64 bits. -/
  | int (n : Int64)
  /-- A double. -/
  | double (x : Double)
deriving DecidableEq

namespace Number

/-- The number as a double, the nearest one for an integer. -/
def toDouble : Number → Double
  | int n => Double.ofInt n.toInt
  | double x => x

/-- The text of a number, given how infinity is spelled.  Finite doubles always have a point, so
they differ from integers. -/
def text (infinity : List Char) : Number → List Char
  | int n => Decimal.intText n.toInt
  | double x =>
    if x.isNaN then ['N', 'a', 'N']
    else if x.isInfinite then
      if x.isNegative then '-' :: infinity else infinity
    else Decimal.doubleText x

/-- The order of two numbers. -/
def order : Number → Number → Ordering
  | int a, int b => compare a.toInt b.toInt
  | a, b => compare a.toDouble.position b.toDouble.position

end Number

end PageScript
