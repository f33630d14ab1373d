import Slick.Command
import Slick.Files
import Slick.Source
import Slick.Tree.Dump
import Slick.Tree.Json

/-!
# What a command reports

A report is an exit code, the texts that are handed over for the two output streams, one after
another, and a log if one is wanted. A program that does not read is reported on the error stream
with exit code one; so is a missing file. What is not an error in the source escapes with its own
kind.
-/

namespace Slick

/-- What ends a command without a report of its own. -/
inductive Escape where
  | isDirectory
  | notText
  | tooLong
  | failed (failure : Failure)
  | unsupported (error : Unsupported)
  deriving Repr

/-- The outcome of a command. -/
structure Report where
  exitCode : Nat
  /-- The texts for the output, one after another. -/
  stdout : List String := []
  /-- The texts for the error stream, one after another. -/
  stderr : List String := []
  /-- The lines of the log. -/
  log : List String := []
  escape : Option Escape := none

namespace Invocation

/-- The name and the version of the program. -/
def banner : String := "slicktree 0.1.0"

/-- The file as reports show it. -/
def path (invocation : Invocation) : String := (Path.ofText invocation.file).toText

/-- A line of the log of one part of the program, if a log is wanted. -/
def log (invocation : Invocation) (part message : String) : List String :=
  if invocation.verbose then ["DEBUG slicktree." ++ part ++ ": " ++ message ++ "\n"] else []

/-- The log that every command starts with. -/
def opening (invocation : Invocation) : List String := invocation.log "cli" banner

/-- The log about a program that was read. -/
def parsedLog (invocation : Invocation) (program : Program) : List String :=
  invocation.log "parser"
    ("Parsed " ++ toString program.statements.length ++ " statements from " ++ invocation.path)

/-- The log about a tree that was made. -/
def convertedLog (invocation : Invocation) (tree : Tree) : List String :=
  invocation.log "traverser" ("Converted " ++ toString tree.children.length ++ " statements")

/-- The declarations from the given number on, each with its number, its form and its name. -/
def numbered (number : Nat) : List Stmt → List String
  | [] => []
  | stmt :: rest =>
    ("  " ++ toString number ++ ". " ++ stmt.variantName ++ " " ++ stmt.declaredName ++ "\n") ::
      numbered (number + 1) rest

/-- How many declarations there are, and which. -/
def listing (statements : List Stmt) : List String :=
  ("Parsed " ++ toString statements.length ++ " statements.\n") :: numbered 1 statements

/-- The report that shows a program as a tree. -/
def onTree (invocation : Invocation) (log : List String) (program : Program)
    (text : Tree → String) : Report :=
  match program.display with
  | .error error => { exitCode := 1, log, escape := some (.unsupported error) }
  | .ok tree =>
    { exitCode := 0, stdout := [text tree], log := log ++ invocation.convertedLog tree }

/-- The report on a program. -/
def onProgram (invocation : Invocation) (program : Program) : Report :=
  let log := invocation.opening ++ invocation.parsedLog program
  match invocation.command with
  | .parse => { exitCode := 0, stdout := listing program.statements, log }
  | .tree indent => invocation.onTree log program fun tree => tree.json indent ++ "\n"
  | .dump => invocation.onTree log program Tree.dump

/-- The report on a source text. -/
def onSource (keywords : Keywords) (invocation : Invocation) (source : String) : Report :=
  match Program.parse keywords source (some invocation.path) with
  | .error (.refused flaw) =>
    { exitCode := 1, stderr := [flaw.diagnostic.text ++ "\n"], log := invocation.opening }
  | .error failure =>
    { exitCode := 1, log := invocation.opening, escape := some (.failed failure) }
  | .ok program => invocation.onProgram program

/-- The report on what stands at the path of the file. -/
def report (keywords : Keywords) (invocation : Invocation) (found : Found) : Report :=
  match found with
  | .nothing =>
    let text := "Error: file not found: " ++ invocation.path
    { exitCode := 1, stderr := [text ++ "\n"], log := invocation.opening }
  | .directory => { exitCode := 1, log := invocation.opening, escape := some .isDirectory }
  | .tooLong => { exitCode := 1, log := invocation.opening, escape := some .tooLong }
  | .file content =>
    match Found.decode? content with
    | none => { exitCode := 1, log := invocation.opening, escape := some .notText }
    | some source => onSource keywords invocation source

/-- The report on a file of a disk, of which it is known what stands at a path. -/
def onDisk (keywords : Keywords) (disk : Path → Found) (invocation : Invocation) : Report :=
  invocation.report keywords (disk (Path.ofText invocation.file))

end Invocation

end Slick
