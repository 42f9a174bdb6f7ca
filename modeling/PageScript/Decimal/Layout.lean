import PageScript.Decimal.Pattern
import PageScript.Decimal.Place
/-!
# Writing numbers under a decimal pattern

A number is scaled, rounded to the greatest number of places that its pattern allows, stripped of
the zeros that the pattern does not ask for, split into groups, and put between the
affixes of its sign.
-/

namespace PageScript.Decimal.Pattern

-- A power means the same here with and without the theory of monoids in scope.
attribute [local instance (high)] instPowNat

/-- Puts a comma before every digit, the first one apart, whose distance to the end is a multiple
of `size`. -/
def group (size : Nat) : List Char → List Char
  | [] => []
  | c :: rest =>
    if !rest.isEmpty && rest.length % size == 0 then c :: ',' :: group size rest
    else c :: group size rest

/-- Drops trailing zeros, but keeps the first `least` digits. -/
def stripZeros (least : Nat) (ds : List Char) : List Char :=
  ds.take least ++ ((ds.drop least).reverse.dropWhile (· == '0')).reverse

/-- The digits before the point: no leading zeros but those that the pattern asks for. -/
def wholeDigits (p : Pattern) (n : Nat) : List Char :=
  let ds := if n = 0 then [] else digits n
  List.replicate (p.minWhole - ds.length) '0' ++ ds

/-- The digits of a finite magnitude, rounded and grouped; a lone zero where none would be left. -/
def body (p : Pattern) (g : Nat) : List Char :=
  let n := fixed g p.maxFraction
  let fraction := stripZeros p.minFraction (lastDigits p.maxFraction n)
  let whole := p.wholeDigits (n / 10 ^ p.maxFraction)
  let whole := if whole.isEmpty && fraction.isEmpty then ['0'] else whole
  let whole := match p.grouping with
    | none => whole
    | some size => group size whole
  if fraction.isEmpty then whole else whole ++ '.' :: fraction

/-- The affixes of a number with or without a minus sign.  Without affixes of their own, negative
numbers have a minus sign before those of the others. -/
def affixes (p : Pattern) (negative : Bool) : List Char × List Char :=
  match negative, p.negative with
  | false, _ => p.positive
  | true, some affixes => affixes
  | true, none => ('-' :: p.positive.1, p.positive.2)

/-- The text of a number under a pattern. -/
def format (p : Pattern) (x : Double) : List Char :=
  if x.isNaN then ['N', 'a', 'N']
  else
    let (lead, tail) := p.affixes x.isNegative
    let scaled := x.abs * Double.ofInt p.factor
    if scaled.isInfinite then lead ++ '∞' :: tail
    else lead ++ p.body scaled.magnitude ++ tail

end PageScript.Decimal.Pattern
