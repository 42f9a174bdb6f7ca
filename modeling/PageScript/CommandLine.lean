import PageScript.Settings
/-!
# Command lines

A command line is read from left to right.  Flags may be written together, and an option with an
operand may end them; its operand is the rest of the argument or, if nothing is left, the next
argument whatever it looks like.  After `--` there are no options any more.  A lone `-` is not
an option: as the page it stands for standard input.
-/

namespace PageScript

/-- The options that take an operand. -/
inductive OperandOption where
  /-- A parameter of the request. -/
  | param
  /-- A parameter that persists. -/
  | persistent
  /-- A settings file. -/
  | file
deriving DecidableEq, Repr

/-- The letter of an option. -/
def OperandOption.letter : OperandOption → Char
  | param => 'p'
  | persistent => 'P'
  | file => 'f'

/-- Why a command line makes no sense. -/
inductive UsageError where
  /-- The operand of the last option is missing. -/
  | missingOperand (option : OperandOption)
  /-- The operand of an option is no assignment. -/
  | badAssignment (fault : AssignmentFault)
  /-- There is no option of this letter. -/
  | unknownOption (c : Char)
  /-- No page is given. -/
  | noScript
  /-- More than one page is given. -/
  | tooManyScripts (count : Nat)
deriving DecidableEq, Repr

/-- The wording of a usage error. -/
def UsageError.message : UsageError → String
  | missingOperand option => "-" ++ String.singleton option.letter ++ " requires an argument"
  | badAssignment fault => fault.message
  | unknownOption c => "unknown option: -" ++ String.singleton c
  | noScript => "missing script argument"
  | tooManyScripts count => "too many arguments (" ++ toString count ++ ")"

/-- Where a page is read from. -/
inductive ScriptSource where
  | standardInput
  | file (path : String)
deriving DecidableEq, Repr

/-- A command line, read. -/
structure CommandLine where
  /-- Whether only the body of the response is wanted. -/
  bodyOnly : Bool
  /-- Whether the page is wanted as it was understood, and not its output. -/
  tree : Bool
  /-- Whether more is to be logged. -/
  debug : Bool
  /-- Parameters of the request, in order. -/
  params : List Assignment
  /-- Parameters that persist, in order. -/
  persistent : List Assignment
  /-- Settings files, in order. -/
  files : List String
  /-- The page. -/
  script : ScriptSource
deriving DecidableEq, Repr

namespace CommandLine

/-- What the next argument can be. -/
inductive Expecting where
  /-- Options or a page. -/
  | anything
  /-- The operand of an option. -/
  | operand (option : OperandOption)
  /-- Pages only. -/
  | scripts
deriving DecidableEq, Repr

/-- What has been read of a command line. -/
structure Progress where
  /-- The options so far; the page is not known yet. -/
  line : CommandLine
  /-- The pages so far. -/
  scripts : List String
  /-- What the next argument can be. -/
  expecting : Expecting
deriving DecidableEq, Repr

namespace Progress

/-- Before the first argument. -/
def start : Progress := ⟨⟨false, false, false, [], [], [], .standardInput⟩, [], .anything⟩

/-- Adds an assignment to the list that `add` puts it into. -/
def addAssignment (text : String) (add : Assignment → CommandLine) (p : Progress) :
    Except UsageError Progress :=
  match Assignment.read text.toList with
  | .ok a => .ok { p with line := add a }
  | .error fault => .error (.badAssignment fault)

/-- Adds the operand of an option. -/
def addOperand (option : OperandOption) (text : String) (p : Progress) :
    Except UsageError Progress :=
  let p := { p with expecting := .anything }
  match option with
  | .param =>
    p.addAssignment text fun a => { p.line with params := p.line.params ++ [a] }
  | .persistent =>
    p.addAssignment text fun a => { p.line with persistent := p.line.persistent ++ [a] }
  | .file => .ok { p with line := { p.line with files := p.line.files ++ [text] } }

/-- Reads what follows the letter of an option: its operand, unless that is the next argument. -/
def readAttached (option : OperandOption) (rest : List Char) (p : Progress) :
    Except UsageError Progress :=
  if rest.isEmpty then .ok { p with expecting := .operand option }
  else p.addOperand option (String.ofList rest)

/-- Reads the letters of an argument with options. -/
def readLetters : List Char → Progress → Except UsageError Progress
  | [], p => .ok p
  | 'b' :: rest, p => readLetters rest { p with line := { p.line with bodyOnly := true } }
  | 't' :: rest, p => readLetters rest { p with line := { p.line with tree := true } }
  | 'd' :: rest, p => readLetters rest { p with line := { p.line with debug := true } }
  | 'p' :: rest, p => p.readAttached .param rest
  | 'P' :: rest, p => p.readAttached .persistent rest
  | 'f' :: rest, p => p.readAttached .file rest
  | c :: _, _ => .error (.unknownOption c)

/-- Reads the next argument. -/
def readArgument (p : Progress) (arg : String) : Except UsageError Progress :=
  match p.expecting with
  | .scripts => .ok { p with scripts := p.scripts ++ [arg] }
  | .operand option => p.addOperand option arg
  | .anything =>
    if arg = "--" then .ok { p with expecting := .scripts }
    else
      match arg.toList with
      | '-' :: c :: rest => readLetters (c :: rest) p
      | _ => .ok { p with scripts := p.scripts ++ [arg] }

/-- Ends a command line, which must have given one page. -/
def finish (p : Progress) : Except UsageError CommandLine :=
  match p.expecting, p.scripts with
  | .operand option, _ => .error (.missingOperand option)
  | _, [] => .error .noScript
  | _, [script] =>
    .ok { p.line with script := if script = "-" then .standardInput else .file script }
  | _, scripts => .error (.tooManyScripts scripts.length)

end Progress

/-- Reads a command line. -/
def read (args : List String) : Except UsageError CommandLine := do
  let p ← args.foldlM Progress.readArgument .start
  p.finish

end CommandLine

end PageScript
