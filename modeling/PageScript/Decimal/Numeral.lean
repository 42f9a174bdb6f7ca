import PageScript.Double
/-!
# Reading numerals

Two readers: one for integers of 64 bits, one for decimals with an optional point and an
optional exponent.  Both take an optional sign, and both refuse a text that is not a numeral to
its end.
-/

namespace PageScript.Decimal

-- A power means the same here with and without the theory of monoids in scope.
attribute [local instance (high)] instPowNat

/-- Splits off a sign; the first component says whether it was a minus. -/
def splitSign : List Char → Bool × List Char
  | '-' :: rest => (true, rest)
  | '+' :: rest => (false, rest)
  | rest => (false, rest)

/-- The number that a run of digits writes. -/
def ofDigits (ds : List Char) : Nat := Nat.ofDigitChars 10 ds 0

/-- Attaches a sign to a natural number. -/
def signed (negative : Bool) (n : Nat) : Int := if negative then -(n : Int) else n

/-- An integer with an optional sign, whatever its size. -/
def readInt? (s : List Char) : Option Int :=
  let (negative, ds) := splitSign s
  if !ds.isEmpty && ds.all Char.isDigit then some (signed negative (ofDigits ds)) else none

/-- An integer with an optional sign that fits in 64 bits. -/
def readInt64? (s : List Char) : Option Int64 :=
  (readInt? s).bind fun z =>
    if -(2 ^ (63 : Nat)) ≤ z ∧ z < 2 ^ (63 : Nat) then some (Int64.ofInt z) else none

/-- The magnitude nearest to `n * 10 ^ e`.  The first two answers only save work: from
`10 ^ 310` on all is infinite, and below `2 ^ (-1080)` all rounds to zero. -/
def scientific (n : Nat) (e : Int) : Nat :=
  if n = 0 then 0
  else if 310 ≤ e then Double.infinity
  else if n.log2 + 1100 ≤ -e then 0
  else Double.nearest (n * 10 ^ e.toNat) (10 ^ (-e).toNat)

/-- What may follow the digits of a decimal: nothing, or an exponent. -/
def readExponent? : List Char → Option Int
  | [] => some 0
  | c :: rest => if c == 'e' || c == 'E' then readInt? rest else none

/-- The digits after a point, if there is one, and what follows. -/
def splitFraction : List Char → List Char × List Char
  | '.' :: rest => (rest.takeWhile Char.isDigit, rest.dropWhile Char.isDigit)
  | rest => ([], rest)

/-- The double nearest to a decimal: digits with a point before, between or after them, at least
one digit in all, and an optional exponent. -/
def readDouble? (s : List Char) : Option Double :=
  let (negative, body) := splitSign s
  let whole := body.takeWhile Char.isDigit
  let (fraction, rest) := splitFraction (body.dropWhile Char.isDigit)
  if (whole ++ fraction).isEmpty then none
  else (readExponent? rest).map fun e =>
    Double.ofMagnitude negative (scientific (ofDigits (whole ++ fraction)) (e - fraction.length))

end PageScript.Decimal
