import PageScript.Document
import PageScript.Token.Scanner
/-!
# Well-formed documents

Not every document comes from a page.  In a page a run of text goes on as far as it can, names are
names, and the values of a loop are no functions; and a number is finite unless it is written with
hundreds of digits.
-/

namespace PageScript

namespace Element

/-- Whether a tag can hold the element: its name is one, or is the equals sign for a variable. -/
def IsWellFormed : Element → Prop
  | .number _ | .string _ => True
  | .variable name => name = "=" ∨ Text.isName name.toList
  | .function name => Text.isName name.toList
  | .operator c => Scan.isOperator c

/-- Whether the element is anything but an infinite or undefined double. -/
def isFinite : Element → Bool
  | .number (.double x) => x.isFinite
  | .number (.int _) | .string _ | .variable _ | .function _ | .operator _ => true

end Element

namespace LoopHeader

/-- The values in the opening tag of a loop, in their order. -/
def operands (h : LoopHeader) : List Element := h.start :: h.stop :: h.step.toList

/-- Whether a page can hold the opening tag of the loop. -/
structure IsWellFormed (h : LoopHeader) : Prop where
  /-- The loop variable has a name, and is not the equals sign. -/
  isName : Text.isName h.name.toList
  /-- Each value may stand in a tag. -/
  isWellFormed : ∀ e ∈ h.operands, e.IsWellFormed
  /-- Each value is a variable, a number or a string. -/
  isLoopOperand : ∀ e ∈ h.operands, e.isLoopOperand

end LoopHeader

namespace Document

/-- A document that a page can hold. -/
inductive IsWellFormed : Document → Prop
  /-- The empty document. -/
  | nil : IsWellFormed []
  /-- A run of text has characters, and no other run follows it. -/
  | text {run : String} {d : Document} (nonempty : run ≠ "") (next : ∀ run', Node.text run' ∉ d.head?)
      (rest : IsWellFormed d) : IsWellFormed (.text run :: d)
  /-- An echo tag with any elements. -/
  | echo {elements : List Element} {d : Document} (elements_wf : ∀ e ∈ elements, e.IsWellFormed)
      (rest : IsWellFormed d) : IsWellFormed (.echo elements :: d)
  /-- A loop around a document. -/
  | loop {header : LoopHeader} {body d : Document} (header_wf : header.IsWellFormed)
      (inner : IsWellFormed body) (rest : IsWellFormed d) : IsWellFormed (.loop header body :: d)

end Document

mutual

/-- The elements of the tags in a node. -/
def Node.elements : Node → List Element
  | .text _ => []
  | .echo elements => elements
  | .loop header body => header.operands ++ Document.elements body

/-- The elements of the tags in a document, those inside its loops included. -/
def Document.elements : List Node → List Element
  | [] => []
  | node :: rest => node.elements ++ Document.elements rest

end

end PageScript
