import PageScript.Program
/-!
# The command

Reads files and standard input, and writes what the program reports.
-/

namespace PageScript.Main

-- A power means the same here with and without the theory of monoids in scope.
attribute [local instance (high)] instPowNat

/-- The limit on the rounds of a loop, which no run comes near. -/
def limit : Nat := 2 ^ (62 : Nat)

/-- The bytes of standard input from here on. -/
partial def readAll (stream : IO.FS.Stream) (bytes : ByteArray) : IO ByteArray := do
  let chunk ← stream.read 65536
  if chunk.isEmpty then return bytes
  else readAll stream (bytes ++ chunk)

/-- Runs an action that gives the bytes of a text. -/
def textOf (action : IO ByteArray) : IO (Except ReadError String) := do
  try
    return ReadError.decode (← action)
  catch
    | .noFileOrDirectory .. => return .error .notFound
    | e => return .error (.other (toString e))

/-- The text of a file. -/
def readFile (path : String) : IO (Except ReadError String) :=
  textOf (IO.FS.readBinFile path)

/-- The text of standard input. -/
def readInput : IO (Except ReadError String) :=
  textOf do readAll (← IO.getStdin) .empty

end PageScript.Main

open PageScript in
/-- The command. -/
def main (args : List String) : IO UInt32 := do
  let report ← Program.run Main.limit Main.readFile Main.readInput args
  let out ← IO.getStdout
  out.write report.output
  out.flush
  IO.eprint report.errors
  return report.exitCode.toUInt32
