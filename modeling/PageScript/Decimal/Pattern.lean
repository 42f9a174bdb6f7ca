import PageScript.Decimal.Affix
/-!
# Decimal patterns

A pattern such as `#,##0.00`, `0.###` or `0.0%` says how to write a number: `0` stands for a digit
that is always written, `#` for one that is left out where it is a leading or trailing zero, and the
last `,` gives the size of the digit groups.  An affix may stand on either side.  After `;` comes
a second pair of affixes for negative numbers, around a number part that has no meaning.
-/

namespace PageScript.Decimal

/-- A decimal pattern, read. -/
structure Pattern where
  /-- The affixes of numbers without a minus sign. -/
  positive : List Char × List Char
  /-- The affixes of negative numbers, if they have their own. -/
  negative : Option (List Char × List Char)
  /-- The factor by which the number is scaled: 1, 100 or 1000. -/
  factor : Nat
  /-- The least number of digits before the point. -/
  minWhole : Nat
  /-- The least number of digits after the point. -/
  minFraction : Nat
  /-- The greatest number of digits after the point. -/
  maxFraction : Nat
  /-- The size of the digit groups before the point. -/
  grouping : Option Nat
deriving DecidableEq, Repr

namespace Pattern

/-- The characters of the number part before its point. -/
def isWholeChar (c : Char) : Bool := c == '#' || c == '0' || c == ','

/-- The characters of the number part after its point. -/
def isFractionChar (c : Char) : Bool := c == '#' || c == '0'

/-- The characters of the number part of negative numbers. -/
def isNumberChar (c : Char) : Bool := isWholeChar c || c == '.'

/-- Splits off a point and the digits after it, if there is a point. -/
def splitFraction : List Char → List Char × List Char
  | '.' :: rest => (rest.takeWhile isFractionChar, rest.dropWhile isFractionChar)
  | rest => ([], rest)

/-- The affixes for negative numbers, which take all that is left of the pattern. -/
def splitNegative : List Char → Option (Option (List Char × List Char))
  | [] => some none
  | ';' :: rest => do
    let (lead, rest) ← splitAffix false rest
    let (tail, left) ← splitAffix false (rest.dropWhile isNumberChar)
    if (rest.takeWhile isNumberChar).isEmpty || !left.isEmpty then none
    else some (some (lead, tail))
  | _ => none

/-- Whether optional digits lead and mandatory ones follow. -/
def isWholeOrdered (ds : List Char) : Bool := (ds.dropWhile (· == '#')).all (· == '0')

/-- Whether mandatory digits lead and optional ones follow. -/
def isFractionOrdered (ds : List Char) : Bool := (ds.dropWhile (· == '0')).all (· == '#')

/-- The size of the digit groups: how many digits follow the last comma, if there is a comma. -/
def groupSize (whole : List Char) : Option Nat :=
  if whole.contains ',' then some (whole.reverse.takeWhile (· != ',')).length else none

/-- The one factor that all signs ask for: 1 if there is no sign, none if they disagree. -/
def commonFactor : List Nat → Option Nat
  | [] => some 1
  | f :: rest => if rest.all (· == f) then some f else none

/-- Reads a pattern. -/
def read? (s : List Char) : Option Pattern := do
  let (lead, rest) ← splitAffix false s
  let whole := rest.takeWhile isWholeChar
  let (fraction, rest) := splitFraction (rest.dropWhile isWholeChar)
  let (tail, rest) ← splitAffix false rest
  let negative ← splitNegative rest
  let digits := whole.filter (· != ',')
  let grouping := groupSize whole
  if (digits ++ fraction).isEmpty || !isWholeOrdered digits || !isFractionOrdered fraction ||
      grouping == some 0 then none
  else
    let lead ← Affix.read? false lead
    let tail ← Affix.read? false tail
    let (negative, factors) ← match negative with
      | none => some (none, [])
      | some (lead, tail) => do
        let lead ← Affix.read? false lead
        let tail ← Affix.read? false tail
        some (some (lead.text, tail.text), lead.factors ++ tail.factors)
    let factor ← commonFactor (lead.factors ++ tail.factors ++ factors)
    some {
      positive := (lead.text, tail.text)
      negative
      factor
      minWhole := digits.count '0'
      minFraction := fraction.count '0'
      maxFraction := fraction.length
      grouping }

end Pattern

end PageScript.Decimal
