import PageScript.Element
/-!
# Failures of a running script

Each failure ends the run.  A failure is a cause; `message` is its wording.
-/

namespace PageScript

/-- What the surroundings of a script may refuse. -/
inductive HostError where
  /-- The response header has been sent, so it cannot change any more. -/
  | headerCommitted
  /-- The response has no other encoding than UTF-8. -/
  | unsupportedEncoding (encoding : String)
  /-- There is no one to hand a request on to. -/
  | noDispatcher (path : String)
  /-- The request was handed on in vain. -/
  | dispatchFailed (path reason : String)
deriving DecidableEq, Repr

namespace HostError

/-- The wording of a refusal. -/
def message : HostError → String
  | headerCommitted => "header already generated"
  | unsupportedEncoding encoding => "unsupported encoding '" ++ encoding ++ "'"
  | noDispatcher path => "no dispatcher available for '" ++ path ++ "'"
  | dispatchFailed path reason => "dispatch to '" ++ path ++ "' failed: " ++ reason

end HostError

/-- Why a run failed. -/
inductive RunError where
  /-- A string that is no number was used as one. -/
  | notANumber (text : String)
  /-- An integer was divided by the integer zero. -/
  | divisionByZero
  /-- An operator without a meaning. -/
  | unsupportedOperator (c : Char)
  /-- A function without a meaning. -/
  | unknownFunction (name : String)
  /-- An element found too few values before it. -/
  | stackUnderflow (element : Element)
  /-- A variable outside every loop over it. -/
  | undefinedVariable (name : String)
  /-- A text that is no decimal pattern. -/
  | invalidPattern (text : String)
  /-- The output was refused. -/
  | output (reason : String)
  /-- The surroundings refused something else. -/
  | host (error : HostError)
deriving DecidableEq

namespace RunError

/-- The wording of a failure. -/
def message : RunError → String
  | notANumber text => "the string '" ++ text ++ "' is not valid for arithmetic operations"
  | divisionByZero => "integer division by zero"
  | unsupportedOperator c => "unsupported operator '" ++ String.singleton c ++ "'"
  | unknownFunction name => "unsupported function '@" ++ name ++ "'"
  | stackUnderflow element =>
    "echo stack underflow while evaluating '" ++ String.ofList element.text ++ "'"
  | undefinedVariable name => "variable '" ++ name ++ "' is not defined (empty variable stack)"
  | invalidPattern text => "invalid decimal format pattern '" ++ text ++ "'"
  | output reason => "writing output failed: " ++ reason
  | host error => error.message

end RunError

end PageScript
