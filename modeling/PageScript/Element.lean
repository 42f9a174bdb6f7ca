import PageScript.Value
/-!
# Elements of tags

The elements inside a tag: literals, variables, functions and operators.  Each has a text that
reads back as the same element, infinite and undefined doubles apart.
-/

namespace PageScript

/-- One element of a tag. -/
inductive Element where
  /-- A numeric literal. -/
  | number (n : Number)
  /-- A string literal, without its escapes. -/
  | string (s : String)
  /-- A variable. -/
  | variable (name : String)
  /-- A function, without its `@`. -/
  | function (name : String)
  /-- An operator. -/
  | operator (c : Char)
deriving DecidableEq

namespace Element

/-- The body of a string literal: quotes, backslashes and control characters are escaped. -/
def escapeString : List Char → List Char
  | [] => []
  | '\\' :: rest => '\\' :: '\\' :: escapeString rest
  | '"' :: rest => '\\' :: '"' :: escapeString rest
  | '\n' :: rest => '\\' :: 'n' :: escapeString rest
  | '\r' :: rest => '\\' :: 'r' :: escapeString rest
  | '\t' :: rest => '\\' :: 't' :: escapeString rest
  | c :: rest => c :: escapeString rest

/-- The text of an element inside a tag. -/
def text : Element → List Char
  | .number n => n.text "inf".toList
  | .string s => '"' :: escapeString s.toList ++ ['"']
  | .variable name => name.toList
  | .function name => '@' :: name.toList
  | .operator c => [c]

/-- What an element carries: the value of a literal, otherwise its name or symbol. -/
def value : Element → Value
  | .number n => .number n
  | .string s | .variable s | .function s => .string s
  | .operator c => .string (String.singleton c)

/-- Whether the element may be a limit or a step of a loop. -/
def isLoopOperand : Element → Bool
  | .number _ | .string _ | .variable _ => true
  | .function _ | .operator _ => false

/-- Two elements are the same up to `1e-5` between doubles. -/
def same : Element → Element → Bool
  | .number (.double a), .number (.double b) => (a.toFloat - b.toFloat).abs < 1e-5
  | a, b => a = b

end Element

end PageScript
