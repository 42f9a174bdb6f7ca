import PageScript.Params
import PageScript.Text.Blank
import PageScript.Text.Line
/-!
# Settings

A settings file gives parameters, one assignment `name=value` on each line.  A line with the name
of a store in brackets says which store the lines after it are for; the lines before the first
one are for the request.  Lines that begin with `#` or `;` are comments.  A malformed line
is reported and has no effect, but after a store that does not exist all lines up to the next
one are passed over.
-/

namespace PageScript

/-- What is wrong with an assignment. -/
inductive AssignmentFault where
  /-- There is no equals sign. -/
  | noEquals (text : List Char)
  /-- There is no name before the equals sign. -/
  | noName (text : List Char)
  /-- The name has a blank in it. -/
  | blankInName (name : List Char)
deriving DecidableEq, Repr

/-- The wording of what is wrong with an assignment. -/
def AssignmentFault.message : AssignmentFault → String
  | noEquals text => "expected name=value, got '" ++ String.ofList text ++ "'"
  | noName text => "missing parameter name in '" ++ String.ofList text ++ "'"
  | blankInName name => "parameter name '" ++ String.ofList name ++ "' contains whitespace"

/-- A name and its value. -/
structure Assignment where
  name : List Char
  value : List Char
deriving DecidableEq, Repr

namespace Assignment

/-- Drops a quote at either end, if there are two. -/
def unquote (s : List Char) : List Char :=
  match s with
  | '"' :: body => if body.getLast? = some '"' then body.dropLast else s
  | _ => s

/-- Reads an assignment: a name and a value, with an equals sign between them and blanks anywhere
around them.  The value may stand in double quotes. -/
def read (s : List Char) : Except AssignmentFault Assignment :=
  let name := Text.trim (s.takeWhile (· != '='))
  match s.dropWhile (· != '=') with
  | [] => .error (.noEquals s)
  | _ :: value =>
    if name.isEmpty then .error (.noName s)
    else if name.any Text.isBlank then .error (.blankInName name)
    else .ok ⟨name, unquote (Text.trim value)⟩

end Assignment

/-- The parameters that a run starts with. -/
structure Settings where
  request : Params
  persistent : Params
  temporary : Params

namespace Settings

/-- No parameters at all. -/
def empty : Settings := ⟨∅, ∅, ∅⟩

/-- The parameters of a store. -/
def params (store : Store) (s : Settings) : Params :=
  match store with
  | .request => s.request
  | .persistent => s.persistent
  | .temporary => s.temporary

/-- Sets a parameter. -/
def set (store : Store) (name value : String) (s : Settings) : Settings :=
  match store with
  | .request => { s with request := s.request.insert name value }
  | .persistent => { s with persistent := s.persistent.insert name value }
  | .temporary => { s with temporary := s.temporary.insert name value }

/-- The parameters of two settings together; those of the second win. -/
def merge (s t : Settings) : Settings :=
  ⟨s.request ∪ t.request, s.persistent ∪ t.persistent, s.temporary ∪ t.temporary⟩

/-- What is wrong with a line. -/
inductive LineFault where
  /-- A bracket is not closed. -/
  | unterminatedHeader (line : List Char)
  /-- There is no store of this name. -/
  | unknownStore (name : List Char)
  /-- The line is no assignment. -/
  | badAssignment (fault : AssignmentFault)
deriving DecidableEq, Repr

/-- The wording of what is wrong with a line. -/
def LineFault.message : LineFault → String
  | unterminatedHeader line => "unterminated section header: " ++ String.ofList line
  | unknownStore name => "unknown section [" ++ String.ofList name ++ "]"
  | badAssignment fault => fault.message

/-- A malformed line. -/
structure LineError where
  /-- The number of the line, from 1 on. -/
  line : Nat
  fault : LineFault
deriving DecidableEq, Repr

/-- The wording of a malformed line. -/
def LineError.message (e : LineError) : String :=
  "line " ++ toString e.line ++ ": " ++ e.fault.message

/-- The store of a name, in any letter case. -/
def storeOf? (name : List Char) : Option Store :=
  let name := (Text.trim name).map Char.toLower
  if name = "request".toList then some .request
  else if name = "persistent".toList then some .persistent
  else if name = "temporary".toList then some .temporary
  else none

/-- What has been read of a settings file. -/
structure Progress where
  /-- The parameters so far. -/
  settings : Settings
  /-- The store that assignments are for, unless they are passed over. -/
  store : Option Store
  /-- The malformed lines so far. -/
  errors : List LineError
  /-- The number of lines so far. -/
  count : Nat

namespace Progress

/-- Before the first line. -/
def start : Progress := ⟨.empty, some .request, [], 0⟩

/-- Reports a malformed line. -/
def report (fault : LineFault) (p : Progress) : Progress :=
  { p with errors := p.errors ++ [⟨p.count, fault⟩] }

/-- Reads a line in brackets, of which `rest` is what follows the first bracket. -/
def readHeader (line rest : List Char) (p : Progress) : Progress :=
  if rest.getLast? = some ']' then
    let name := rest.dropLast
    match storeOf? name with
    | some store => { p with store := some store }
    | none => { p with store := none }.report (.unknownStore (Text.trim name))
  else p.report (.unterminatedHeader line)

/-- Reads an assignment, unless it is passed over. -/
def readAssignment (line : List Char) (p : Progress) : Progress :=
  match p.store with
  | none => p
  | some store =>
    match Assignment.read line with
    | .ok a =>
      { p with settings := p.settings.set store (String.ofList a.name) (String.ofList a.value) }
    | .error fault => p.report (.badAssignment fault)

/-- Reads the next line. -/
def readLine (p : Progress) (line : List Char) : Progress :=
  let p := { p with count := p.count + 1 }
  match Text.trim line with
  | [] => p
  | c :: rest =>
    if c = '#' ∨ c = ';' then p
    else if c = '[' then p.readHeader (c :: rest) rest
    else p.readAssignment (c :: rest)

end Progress

/-- Reads a settings file: its parameters and its malformed lines, in order. -/
def read (text : List Char) : Settings × List LineError :=
  let p := (Text.lines text).foldl Progress.readLine .start
  (p.settings, p.errors)

end Settings

end PageScript
