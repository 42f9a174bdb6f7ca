import PageScript.Document.Reading
import PageScript.Run
/-!
# Rendering pages

Rendering a page reads it first.  A page that is no document is refused before it writes anything.
-/

namespace PageScript

/-- Why a page cannot be rendered. -/
inductive PageError where
  /-- The page is no document. -/
  | unreadable (error : SyntaxError)
  /-- The document failed. -/
  | failed (error : RunError)
  /-- A loop of the document took too many rounds. -/
  | unfinished
deriving DecidableEq

namespace PageError

/-- The wording of the failure of a page, after the kind of the failure. -/
def message : PageError → String
  | unreadable (.lexical e) => "lexical error: " ++ e.message
  | unreadable e => "syntax error: " ++ e.message
  | failed e => "runtime error: " ++ e.message
  | unfinished => "runtime error: too many rounds"

/-- A run that stopped early is a failure of its page. -/
def ofStop : Stop → PageError
  | .failed e => failed e
  | .unfinished => unfinished

end PageError

/-- Reads a page and runs its document, each loop for at most `limit` rounds. -/
def render {σ : Type} [Host σ] (limit : Nat) (page : List Char) : EStateM PageError σ Unit :=
  fun host =>
    match Document.read page with
    | .error e => .error (.unreadable e) host
    | .ok document =>
      match document.execute limit host with
      | .ok _ host => .ok () host
      | .error stop host => .error (.ofStop stop) host

end PageScript
