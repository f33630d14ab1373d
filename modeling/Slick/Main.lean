import Slick.Command.Console

/-!
# The program

Reads the file that the command line names, and writes the report on it to the two output
streams. All decisions are made by `Invocation.ofArguments` and `Invocation.report`.
-/

namespace Slick

/-- What is written when the arguments do not make up an invocation. -/
def usage : String :=
  "Usage: slicktree [-v] (parse | tree [--indent N] | dump) FILE\n"

/-- What is written when a command ends without a report of its own. -/
def Escape.text : Escape → String
  | isDirectory => "Error: not a file"
  | notText => "Error: not a UTF-8 text"
  | tooLong => "Error: the path is too long"
  | failed _ => "Error: cannot read the program"
  | unsupported error => "Error: " ++ error.message

/-- What stands at a path on the disk. A directory is refused with the error number twenty-one; a
path that goes through a file is refused with another one, and leads to nothing. A path that is
too long is refused with the number thirty-six. -/
def lookUp (path : String) : IO Found := do
  try
    return .file (← IO.FS.readBinFile path)
  catch
    | .noFileOrDirectory .. => return .nothing
    | .inappropriateType _ number _ => return if number = 21 then .directory else .nothing
    | error@(.invalidArgument _ number _) => if number = 36 then return .tooLong else throw error
    | error => throw error

/-- How texts arrive on a stream: as they are on a terminal, and plain elsewhere. -/
def echoOn (stream : IO.FS.Stream) : IO (String → String) := do
  if ← stream.isTty then return id
  else return Text.plain

/-- Runs a command line on the disk and returns the exit code. -/
def runOnDisk (args : List String) : IO UInt32 := do
  match Invocation.ofArguments args with
  | .error _ =>
    IO.eprint usage
    return 2
  | .ok invocation =>
    let report := invocation.report Keywords.standard (← lookUp invocation.path)
    let output := report.output (← echoOn (← IO.getStdout)) (← echoOn (← IO.getStderr))
    IO.print output.stdout
    IO.eprint output.stderr
    if let some escape := report.escape then IO.eprintln escape.text
    return report.exitCode.toUInt32

end Slick

/-- The entry point. -/
def main (args : List String) : IO UInt32 := Slick.runOnDisk args
