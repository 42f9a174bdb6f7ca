/-!
# Affixes of decimal patterns

The text before and after the number part of a decimal pattern.  Between single quotes any
character stands for itself; two quotes in a row stand for one quote.  Outside quotes the
percent and per mille signs stand for themselves too, but also scale the number, the
currency sign is refused, and the characters of the number part end the affix.
-/

namespace PageScript.Decimal

/-- The characters with a meaning of their own in a pattern: an affix has them in quotes only. -/
def isPatternChar (c : Char) : Bool :=
  c == '#' || c == '0' || c == ',' || c == '.' || c == ';' || c == '\''

/-- Splits the longest affix off the front of a pattern, quotes included.  `quoted` says whether
a quote is open; there is no affix if one stays open. -/
def splitAffix (quoted : Bool) : List Char → Option (List Char × List Char)
  | [] => if quoted then none else some ([], [])
  | c :: rest =>
    if c = '\'' then (splitAffix (!quoted) rest).map fun (affix, rest) => (c :: affix, rest)
    else if quoted || !isPatternChar c then
      (splitAffix quoted rest).map fun (affix, rest) => (c :: affix, rest)
    else some ([], c :: rest)

/-- What an affix means: the text to write, and the factors its percent and per mille signs ask
for. -/
structure Affix where
  /-- The text without its quotes. -/
  text : List Char
  /-- One factor for each sign outside quotes: 100 for percent, 1000 for per mille. -/
  factors : List Nat
deriving DecidableEq, Repr

namespace Affix

/-- Puts a character before the text. -/
def cons (c : Char) (a : Affix) : Affix := { a with text := c :: a.text }

/-- Puts a sign before the text, and its factor before the factors. -/
def consSign (c : Char) (factor : Nat) (a : Affix) : Affix := ⟨c :: a.text, factor :: a.factors⟩

/-- Reads an affix; `quoted` says whether a quote is open.  The currency sign outside quotes has
no meaning. -/
def read? (quoted : Bool) : List Char → Option Affix
  | [] => some ⟨[], []⟩
  | '\'' :: '\'' :: rest => (read? quoted rest).map (cons '\'')
  | '\'' :: rest => read? (!quoted) rest
  | c :: rest =>
    if quoted then (read? quoted rest).map (cons c)
    else if c = '%' then (read? quoted rest).map (consSign c 100)
    else if c = '‰' then (read? quoted rest).map (consSign c 1000)
    else if c = '¤' then none
    else (read? quoted rest).map (cons c)

end Affix

end PageScript.Decimal
