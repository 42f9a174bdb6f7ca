import PageScript.Element
/-!
# Documents

A document is what a page says once it is read: runs of text, echo tags, and loops around documents.
Writing a document gives a page again; backslashes of a text are escaped, and so is a brace that
would otherwise open a tag.
-/

namespace PageScript

/-- The opening tag of a loop. -/
structure LoopHeader where
  /-- The loop variable. -/
  name : String
  /-- The first value of the variable. -/
  start : Element
  /-- The limit: the loop ends when the variable is greater. -/
  stop : Element
  /-- What each round adds to the variable; 1 if it is not given. -/
  step : Option Element
deriving DecidableEq

/-- A piece of a document. -/
inductive Node where
  /-- A run of text, without its escapes. -/
  | text (s : String)
  /-- An echo tag, which writes the values of its elements. -/
  | echo (elements : List Element)
  /-- A loop and its body. -/
  | loop (header : LoopHeader) (body : List Node)

/-- A whole page, read. -/
abbrev Document := List Node

/-- Escapes a run of text. -/
def escapeText : List Char → List Char
  | [] => []
  | '\\' :: rest => '\\' :: '\\' :: escapeText rest
  | '\x7b' :: '$' :: rest => '\\' :: '\x7b' :: '$' :: escapeText rest
  | c :: rest => c :: escapeText rest

/-- The text of an element and the blank before it. -/
def Element.spacedText (e : Element) : List Char := ' ' :: e.text

/-- The text of the opening tag of a loop. -/
def LoopHeader.text (h : LoopHeader) : List Char :=
  "\x7b$FOR ".toList ++ h.name.toList ++ h.start.spacedText ++ h.stop.spacedText ++
    (h.step.toList.flatMap Element.spacedText) ++ " $\x7d".toList

mutual

/-- The page that a node comes from. -/
def Node.source : Node → List Char
  | .text s => escapeText s.toList
  | .echo elements => "\x7b$=".toList ++ elements.flatMap Element.spacedText ++ " $\x7d".toList
  | .loop header body => header.text ++ Document.source body ++ "\x7b$END$\x7d".toList

/-- The page that a document comes from, up to the blanks in its tags. -/
def Document.source : List Node → List Char
  | [] => []
  | node :: rest => node.source ++ Document.source rest

end

mutual

/-- The number of nodes in a node, itself included. -/
def Node.count : Node → Nat
  | .text _ | .echo _ => 1
  | .loop _ body => 1 + Document.count body

/-- The number of nodes in a document. -/
def Document.count : List Node → Nat
  | [] => 0
  | node :: rest => node.count + Document.count rest

end

/-- Whether two lists of elements are the same up to `1e-5` between doubles. -/
def Element.sameAll : List Element → List Element → Bool
  | [], [] => true
  | a :: as, b :: bs => a.same b && sameAll as bs
  | _, _ => false

/-- Whether two loop headers are the same up to `1e-5` between doubles. -/
def LoopHeader.same (a b : LoopHeader) : Bool :=
  a.name == b.name && a.start.same b.start && a.stop.same b.stop &&
    Element.sameAll a.step.toList b.step.toList

mutual

/-- Whether two nodes are the same up to `1e-5` between doubles. -/
def Node.same : Node → Node → Bool
  | .text s, .text t => s == t
  | .echo as, .echo bs => Element.sameAll as bs
  | .loop a as, .loop b bs => a.same b && Document.same as bs
  | _, _ => false

/-- Whether two documents are the same up to `1e-5` between doubles. -/
def Document.same : List Node → List Node → Bool
  | [], [] => true
  | a :: as, b :: bs => a.same b && Document.same as bs
  | _, _ => false

end

end PageScript
