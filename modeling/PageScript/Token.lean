import PageScript.Number
/-!
# Tokens

A page is plain text with tags in it.  Outside tags there are runs of text and tag openings;
inside tags there are names, literals, operators, functions and the tag closing.
-/

namespace PageScript

/-- A token of a page. -/
inductive Token where
  /-- A run of text, without its escapes. -/
  | text (s : String)
  /-- The opening of a tag. -/
  | tagOpen
  /-- The closing of a tag. -/
  | tagClose
  /-- A name, or the equals sign that begins an echo tag. -/
  | name (s : String)
  /-- A numeric literal. -/
  | number (n : Number)
  /-- A string literal, without its escapes. -/
  | string (s : String)
  /-- An operator. -/
  | operator (c : Char)
  /-- A function, without its `@`. -/
  | function (s : String)
  /-- The end of the page. -/
  | endOfInput
deriving DecidableEq

namespace Token

/-- The kind of a token, which is its token without what it carries. -/
inductive Kind where
  | text
  | tagOpen
  | tagClose
  | name
  | number
  | string
  | operator
  | function
  | endOfInput
deriving DecidableEq, Repr

/-- The kind of a token. -/
def kind : Token → Kind
  | text _ => .text
  | tagOpen => .tagOpen
  | tagClose => .tagClose
  | name _ => .name
  | number _ => .number
  | string _ => .string
  | operator _ => .operator
  | function _ => .function
  | endOfInput => .endOfInput

/-- What messages call a kind of tokens. -/
def Kind.label : Kind → String
  | .text => "TEXT"
  | .tagOpen => "TAG_OPEN"
  | .tagClose => "TAG_CLOSE"
  | .name => "VARIABLE_NAME"
  | .number => "NUMBER"
  | .string => "STRING"
  | .operator => "OPERATOR"
  | .function => "FUNCTION"
  | .endOfInput => "END_OF_INPUT"

end Token

/-- Which rules hold for the next token. -/
inductive Mode where
  /-- Outside tags. -/
  | text
  /-- Inside a tag. -/
  | tag
deriving DecidableEq, Repr

/-- What messages call a mode. -/
def Mode.name : Mode → String
  | .text => "text"
  | .tag => "tag"

/-- Why no token can be read.  Offsets count the bytes before the place in question. -/
inductive LexError where
  /-- A backslash before a character that it cannot escape, or before the end of the page. -/
  | invalidEscape (found : Option Char) (offset : Nat)
  /-- A string literal without a closing quote. -/
  | unterminatedString (offset : Nat)
  /-- A character that begins no token. -/
  | unexpectedChar (found : Char) (offset : Nat) (mode : Mode)
  /-- A numeral with two points. -/
  | malformedNumber (text : String) (offset : Nat)
  /-- The end of the page has been read already. -/
  | pastEnd
deriving DecidableEq, Repr

/-- The wording of a lexical error. -/
def LexError.message : LexError → String
  | invalidEscape found offset =>
    "invalid escape sequence '\\" ++ String.ofList found.toList ++ "' at offset " ++ toString offset
  | unterminatedString offset =>
    "string literal starting at offset " ++ toString offset ++ " is never closed"
  | unexpectedChar found offset mode =>
    "unexpected character '" ++ String.singleton found ++ "' at offset " ++ toString offset ++
      " in " ++ mode.name ++ " mode"
  | malformedNumber text offset =>
    "malformed number '" ++ text ++ "' at offset " ++ toString offset
  | pastEnd => "cannot read a token after end of input"

end PageScript
