import PageScript.Token.Progress
/-!
# Token streams

All the tokens of a page, up to its end or to the first that cannot be read.  The rules change
after a tag opening and after a tag closing, or never.
-/

namespace PageScript.Scanner

/-- The rules that a token puts in force: those of tags after a tag opening, those of text after a
tag closing. -/
def modeAfter (mode : Mode) : Token → Mode
  | .tagOpen => .tag
  | .tagClose => .text
  | _ => mode

/-- All tokens from here on, and the failure that ends them if the end of the page does not.
`follow` says which rules are in force after a token. -/
def tokens (follow : Mode → Token → Mode) (s : Scanner) : List Token × Option LexError :=
  match _ : s.next with
  | (.error e, _) => ([], some e)
  | (.ok token, t) =>
    if token = .endOfInput then ([token], none)
    else
      let (rest, failure) := tokens follow (t.setMode (follow s.mode token))
      (token :: rest, failure)
termination_by s.rest.length
decreasing_by
  have shorter : t.rest.length < s.rest.length := next_length_lt ‹_› ‹_›
  exact shorter

end PageScript.Scanner

namespace PageScript

/-- The tokens of a page, under the rules that its tags put in force. -/
def pageTokens (page : List Char) : List Token × Option LexError :=
  (Scanner.ofSource page).tokens Scanner.modeAfter

end PageScript
