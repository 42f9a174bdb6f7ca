import PageScript.Double
/-!
# Decimals with a given number of places

A natural number `n` with `places` places stands for `n / 10 ^ places`.  This module writes such
decimals, and finds the one that stands for a finite double: rounded to a fixed number
of places, or with the fewest places that read back as the same double.
-/

namespace PageScript.Decimal

-- A power means the same here with and without the theory of monoids in scope.
attribute [local instance (high)] instPowNat

/-- The decimal digits of a natural number. -/
def digits (n : Nat) : List Char := Nat.toDigits 10 n

/-- The last `k` decimal digits of a natural number, zeros included. -/
def lastDigits (k n : Nat) : List Char := (digits (10 ^ k + n % 10 ^ k)).drop 1

/-- The digits of an integer after its sign, if it has one. -/
def intText (z : Int) : List Char :=
  if z < 0 then '-' :: digits z.natAbs else digits z.natAbs

/-- The text of `n / 10 ^ places`, with a point and `places` digits after it. -/
def placesText (n places : Nat) : List Char :=
  digits (n / 10 ^ places) ++ '.' :: lastDigits places n

/-- The decimal with `places` places nearest to a finite magnitude; a tie goes to the even
digit. -/
def fixed (g places : Nat) : Nat :=
  roundDiv (Double.units g * 10 ^ places) Double.scale

/-- Whether `n / 10 ^ places` reads as the magnitude `g`. -/
def readsAs (g places n : Nat) : Bool := Double.nearest n (10 ^ places) == g

/-- The decimal with `places` places that reads as `g`, if there is one: of two neighbours of the
value that both do, the nearer, and the upper one on a tie. -/
def closest? (g places : Nat) : Option Nat :=
  let value := Double.units g * 10 ^ places
  -- If any decimal with this many places reads as `g`, one of these two does.
  let low := value / Double.scale
  let high := low + 1
  let nearHigh := Double.scale ≤ 2 * (value % Double.scale)
  if readsAs g places low ∧ ¬ (readsAs g places high ∧ nearHigh) then some low
  else if readsAs g places high then some high
  else none

/-- The fewest places, at least one, at which some decimal reads as the finite magnitude `g`, and
that decimal.  With `Double.places` places every value is exact, so the search never fails. -/
def fewestPlaces (g : Nat) : Nat × Nat :=
  let found := (List.range' 1 Double.places).findSome? fun places =>
    (closest? g places).map (places, ·)
  found.getD (Double.places, Double.units g * 10 ^ Double.places / Double.scale)

/-- The text of `n / 10 ^ places` with its sign, for the pair of `places` and `n`. -/
def signedText (negative : Bool) : Nat × Nat → List Char
  | (places, n) => if negative then '-' :: placesText n places else placesText n places

/-- The text of a finite double: always with a point, never with an exponent, and with the fewest
places that read back. -/
def doubleText (x : Double) : List Char := signedText x.isNegative (fewestPlaces x.magnitude)

end PageScript.Decimal
