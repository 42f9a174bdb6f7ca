import PageScript.Token
import PageScript.Text.Letter
import PageScript.Decimal.Numeral
/-!
# Scanning

A scanner stands somewhere in a page and reads one token at a time, under the rules of the
mode that it is in.  It never goes back: what it has not read yet is always an end of the page,
also after a failure, and the place of a failure is told by what the page holds from there on.
-/

namespace PageScript

/-- A reader of tokens. -/
structure Scanner where
  /-- The whole page. -/
  source : List Char
  /-- The part of the page that has not been read. -/
  rest : List Char
  /-- The rules for the next token. -/
  mode : Mode
  /-- The token read last. -/
  last : Option Token
deriving DecidableEq

/-- The number of bytes that a text takes. -/
def byteSize (s : List Char) : Nat := s.foldr (fun c size => c.utf8Size + size) 0

namespace Scan

/-- Reads a run of text up to a tag opening or the end, after `done`, which is reversed.  A
backslash escapes itself and an opening brace, and nothing else; where it does not, the page
from the backslash on is given instead. -/
def text (done : List Char) : List Char → Except (List Char) (List Char × List Char)
  | [] => .ok (done.reverse, [])
  | '\x7b' :: '$' :: rest => .ok (done.reverse, '\x7b' :: '$' :: rest)
  | '\\' :: '\\' :: rest => text ('\\' :: done) rest
  | '\\' :: '\x7b' :: rest => text ('\x7b' :: done) rest
  | '\\' :: rest => .error ('\\' :: rest)
  | c :: rest => text (c :: done) rest

/-- Why the body of a string literal cannot be read. -/
inductive LiteralFault where
  /-- There is no closing quote. -/
  | unclosed
  /-- The page holds, from `place` on, a backslash that escapes nothing. -/
  | badEscape (place : List Char)
deriving DecidableEq

/-- The character that a backslash and `c` stand for in a string literal. -/
def escaped? : Char → Option Char
  | '\\' => some '\\'
  | '"' => some '"'
  | 'n' => some '\n'
  | 'r' => some '\r'
  | 't' => some '\t'
  | _ => none

/-- Reads the body of a string literal and its closing quote, after `done`, which is reversed. -/
def literal (done : List Char) : List Char → Except LiteralFault (List Char × List Char)
  | [] => .error .unclosed
  | '"' :: rest => .ok (done.reverse, rest)
  | ['\\'] => .error (.badEscape ['\\'])
  | '\\' :: c :: rest =>
    match escaped? c with
    | some d => literal (d :: done) rest
    | none => .error (.badEscape ('\\' :: c :: rest))
  | c :: rest => literal (c :: done) rest

/-- The blanks between the tokens of a tag. -/
def isGap (c : Char) : Bool := c == ' ' || c == '\t' || c == '\r' || c == '\n'

/-- The operators. -/
def isOperator (c : Char) : Bool := c == '+' || c == '-' || c == '*' || c == '/' || c == '^'

/-- The characters that a numeral goes on with. -/
def isNumeralChar (c : Char) : Bool := c.isDigit || c == '.'

/-- Whether a numeral begins here: with a digit, or with a sign before a digit. -/
def startsNumeral : List Char → Bool
  | c :: d :: _ => c.isDigit || ((c == '+' || c == '-') && d.isDigit)
  | [c] => c.isDigit
  | [] => false

/-- The number that a numeral stands for: an integer if it has no point and fits in 64 bits,
otherwise a double.  Two points make no number. -/
def number? (s : List Char) : Option Number :=
  if 1 < s.count '.' then none
  else if s.contains '.' then (Decimal.readDouble? s).map .double
  else match Decimal.readInt64? s with
    | some n => some (.int n)
    | none => (Decimal.readDouble? s).map .double

end Scan

namespace Scanner

/-- A scanner at the start of a page. -/
def ofSource (source : List Char) : Scanner := ⟨source, source, .text, none⟩

/-- The number of bytes of the page before a part that it ends with. -/
def offsetOf (s : Scanner) (part : List Char) : Nat := byteSize s.source - byteSize part

/-- The number of bytes that have been read. -/
def offset (s : Scanner) : Nat := s.offsetOf s.rest

/-- Reads a token outside tags from a page that has not ended. -/
def readText (s : Scanner) (input : List Char) : Except LexError Token × List Char :=
  match input with
  | '\x7b' :: '$' :: rest => (.ok .tagOpen, rest)
  | _ =>
    match Scan.text [] input with
    | .ok (run, rest) => (.ok (.text (String.ofList run)), rest)
    | .error place => (.error (.invalidEscape place.tail.head? (s.offsetOf place)), place)

/-- Reads a numeral. -/
def readNumber (s : Scanner) (first : Char) (rest : List Char) :
    Except LexError Token × List Char :=
  let numeral := first :: rest.takeWhile Scan.isNumeralChar
  let result := match Scan.number? numeral with
    | some n => .ok (.number n)
    | none => .error (.malformedNumber (String.ofList numeral) (s.offsetOf (first :: rest)))
  (result, rest.dropWhile Scan.isNumeralChar)

/-- Reads a string literal, of which `rest` is what follows its opening quote. -/
def readString (s : Scanner) (rest : List Char) : Except LexError Token × List Char :=
  match Scan.literal [] rest with
  | .ok (body, rest) => (.ok (.string (String.ofList body)), rest)
  | .error .unclosed => (.error (.unterminatedString (s.offsetOf ('"' :: rest))), [])
  | .error (.badEscape place) =>
    (.error (.invalidEscape place.tail.head? (s.offsetOf place)), place.tail.tail)

/-- Reads a token inside a tag; there is no blank before it. -/
def readTag (s : Scanner) (input : List Char) : Except LexError Token × List Char :=
  match input with
  | [] => (.ok .endOfInput, [])
  | c :: rest =>
    if c = '=' then (.ok (.name "="), rest)
    else if Text.isLetter c then
      (.ok (.name (String.ofList (c :: rest.takeWhile Text.isNameChar))),
        rest.dropWhile Text.isNameChar)
    else if Scan.startsNumeral input then s.readNumber c rest
    else if Scan.isOperator c then (.ok (.operator c), rest)
    else if c = '@' ∧ rest.head?.any Text.isLetter then
      (.ok (.function (String.ofList (rest.takeWhile Text.isNameChar))),
        rest.dropWhile Text.isNameChar)
    else if c = '"' then s.readString rest
    else if c = '$' ∧ rest.head? = some '\x7d' then (.ok .tagClose, rest.tail)
    else (.error (.unexpectedChar c (s.offsetOf input) .tag), input)

/-- Reads a token under the rules of the mode: the outcome, and what is left of the page. -/
def read (s : Scanner) : Except LexError Token × List Char :=
  match s.mode with
  | .text => if s.rest.isEmpty then (.ok .endOfInput, []) else s.readText s.rest
  | .tag => s.readTag (s.rest.dropWhile Scan.isGap)

/-- Reads the next token.  The end of the page is read once; after that there is no token. -/
def next (s : Scanner) : Except LexError Token × Scanner :=
  if s.last = some .endOfInput then (.error .pastEnd, s)
  else
    match s.read with
    | (.ok token, rest) => (.ok token, { s with rest, last := some token })
    | (.error e, rest) => (.error e, { s with rest })

/-- The scanner under other rules. -/
def setMode (mode : Mode) (s : Scanner) : Scanner := { s with mode }

end Scanner

end PageScript
