import PageScript.CommandLine
import PageScript.Host.Buffer
import PageScript.Host.Exchange
import PageScript.Page
/-!
# The program

What the command line does: it reads a page, and then either shows how it was understood or renders
it, with the parameters of the settings files and, over them, those of the command line.
Rendering gives a whole response, or its body alone.  How files are read is left open.
-/

namespace PageScript

/-- Why a file cannot be read. -/
inductive ReadError where
  /-- There is no such file. -/
  | notFound
  /-- The file is not UTF-8. -/
  | notUtf8
  /-- Any other reason. -/
  | other (reason : String)
deriving DecidableEq, Repr

/-- The wording of a failure to read a file. -/
def ReadError.message : ReadError → String
  | notFound => "No such file or directory (os error 2)"
  | notUtf8 => "stream did not contain valid UTF-8"
  | other reason => reason

/-- The text of a file. -/
def ReadError.decode (bytes : ByteArray) : Except ReadError String :=
  match String.fromUTF8? bytes with
  | some text => .ok text
  | none => .error notUtf8

/-- What the program leaves behind. -/
structure Report where
  /-- The exit code. -/
  exitCode : Nat
  /-- What it writes to standard output. -/
  output : ByteArray
  /-- What it writes to standard error. -/
  errors : String

namespace Program

/-- How the program is used. -/
def usage : String :=
  "Usage: smscr [-btd] [-p name=value]... [-P name=value]... [-f <file>]... <script|->"

/-- A message of the program, as a line of its own. -/
def complaint (message : String) : String := "smscr: " ++ message ++ "\n"

/-- Success. -/
def success (output : ByteArray) : Report := ⟨0, output, ""⟩

/-- A failure, after some output. -/
def failure (output : ByteArray) (message : String) : Report := ⟨1, output, complaint message⟩

/-- Adds the assignments of a command line to settings. -/
def addAssignments (store : Store) (assignments : List Assignment) (s : Settings) : Settings :=
  assignments.foldl (fun s a => s.set store (String.ofList a.name) (String.ofList a.value)) s

/-- Renders a document and gives its output alone, also if it fails. -/
def bodyReport (limit : Nat) (document : Document) (s : Settings) : Report :=
  match document.execute limit (Buffer.ofParams s.request s.persistent s.temporary) with
  | .ok _ b => success b.output.toUTF8
  | .error stop b => failure b.output.toUTF8 (PageError.ofStop stop).message

/-- Renders a document and gives the response.  A response without a body still has a header, but
one that failed before its header has not. -/
def responseReport (limit : Nat) (document : Document) (s : Settings) : Report :=
  match document.execute limit (Exchange.ofSink .unbounded s.request s.persistent s.temporary) with
  | .error stop x => failure x.response.sink.bytes (PageError.ofStop stop).message
  | .ok _ x =>
    match x.response.commit with
    | .ok _ r => success r.sink.bytes
    | .error reason r => failure r.sink.bytes reason

variable {m : Type → Type} [Monad m]

/-- Reads settings files one after the other; later ones win.  A file that cannot be read ends the
program. -/
def readSettings (readFile : String → m (Except ReadError String)) :
    List String → Settings → m (Except String Settings)
  | [], s => pure (.ok s)
  | path :: rest, s => do
    match ← readFile path with
    | .error e => pure (.error ("cannot read " ++ path ++ ": " ++ e.message))
    | .ok text => readSettings readFile rest (s.merge (Settings.read text.toList).1)

/-- Reads the page. -/
def readScript (readFile : String → m (Except ReadError String))
    (readInput : m (Except ReadError String)) : ScriptSource → m (Except String String)
  | .standardInput => do return (← readInput).mapError ReadError.message
  | .file path => do
    return (← readFile path).mapError fun e => "cannot read " ++ path ++ ": " ++ e.message

/-- Does what a command line asks for. -/
def perform (limit : Nat) (readFile : String → m (Except ReadError String))
    (readInput : m (Except ReadError String)) (line : CommandLine) : m Report := do
  match ← readScript readFile readInput line.script with
  | .error message => pure (failure .empty message)
  | .ok page =>
    match Document.read page.toList with
    | .error e => pure (failure .empty (PageError.unreadable e).message)
    | .ok document =>
      if line.tree then pure (success (String.ofList (Document.source document)).toUTF8)
      else
        match ← readSettings readFile line.files .empty with
        | .error message => pure (failure .empty message)
        | .ok s =>
          let s := addAssignments .request line.params s
          let s := addAssignments .persistent line.persistent s
          pure (if line.bodyOnly then bodyReport limit document s
            else responseReport limit document s)

/-- Runs the program with the given arguments, each loop of the page for at most `limit` rounds. -/
def run (limit : Nat) (readFile : String → m (Except ReadError String))
    (readInput : m (Except ReadError String)) (args : List String) : m Report :=
  match CommandLine.read args with
  | .error e => pure ⟨2, .empty, complaint e.message ++ usage ++ "\n"⟩
  | .ok line => perform limit readFile readInput line

end Program

end PageScript
