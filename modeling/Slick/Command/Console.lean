import Slick.Command.Arguments
import Slick.Command.Report

/-!
# The console

What a command hands over reaches the console through a function that may change it: where a stream
is no terminal, the sequences that only a terminal understands are dropped. The log goes to the
error stream as it is, in front of what the command reports there.
-/

namespace Slick

/-- The length of the sequence for a terminal that a text starts with: an escape character and a
bracket, parameters and a letter. It is zero if there is none. -/
def Text.styleLength : List Char → Nat
  | '\x1b' :: '[' :: rest =>
    let parameters := rest.takeWhile fun c => c.isDigit || c = ';' || c = '?'
    match rest.drop parameters.length with
    | c :: _ => if c.isAlpha then parameters.length + 3 else 0
    | [] => 0
  | _ => 0

/-- A text without its sequences for a terminal. The first `skip` characters belong to one. -/
def Text.unstyled (skip : Nat) : List Char → List Char
  | [] => []
  | c :: rest =>
    match skip, styleLength (c :: rest) with
    | skip + 1, _ => unstyled skip rest
    | 0, length + 1 => unstyled length rest
    | 0, 0 => c :: unstyled 0 rest

/-- A text as it arrives on a stream that is no terminal. -/
def Text.plain (text : String) : String := String.ofList (unstyled 0 text.toList)

/-- What a run of a command leaves on the console. -/
structure Output where
  exitCode : Nat
  stdout : String := ""
  stderr : String := ""
  deriving DecidableEq, Repr

/-- What a report leaves on the console if its texts arrive on the two streams as given. -/
def Report.output (toStdout toStderr : String → String) (report : Report) : Output :=
  ⟨report.exitCode, String.join (report.stdout.map toStdout),
    String.join report.log ++ String.join (report.stderr.map toStderr)⟩

/-- The report of a command line in a directory tree. -/
def Files.run (tree : Files) (keywords : Keywords) (args : List String) :
    Except UsageError Report := do
  let invocation ← Invocation.ofArguments args
  return invocation.onDisk keywords tree.find

end Slick
