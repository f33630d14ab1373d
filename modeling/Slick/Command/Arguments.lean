import Slick.Command
import Slick.Integer

/-!
# Arguments of the command line

The options of the program stand before the name of a command, and the options of a command on
either side of the file. A double dash ends the options.
-/

namespace Slick

/-- The arguments do not make up an invocation. -/
inductive UsageError where
  | unknownOption
  | unknownCommand
  | missingCommand
  | missingValue
  | notAnInteger
  | missingFile
  | extraArgument
  deriving DecidableEq, Repr

namespace Invocation

/-- Whether an argument is an option rather than a name. A lone dash is a name. -/
def isOption (argument : String) : Bool :=
  match argument.toList with
  | '-' :: _ :: _ => true
  | _ => false

/-- Whether an argument asks for a log: the word, or its letter any number of times. -/
def isVerbose (argument : String) : Bool :=
  argument == "--verbose" ||
    match argument.toList with
    | '-' :: c :: rest => (c :: rest).all (· = 'v')
    | _ => false

/-- The options before the command, and what follows them. -/
def leadingOptions (verbose : Bool) : List String → Except UsageError (Bool × List String)
  | [] => .ok (verbose, [])
  | argument :: rest =>
    if argument = "--" then .ok (verbose, rest)
    else if isVerbose argument then leadingOptions true rest
    else if isOption argument then .error .unknownOption
    else .ok (verbose, argument :: rest)

/-- The value of an option that is written with an equals sign. -/
def valueAfter? (option argument : String) : Option String :=
  let start := option.toList ++ ['=']
  if start.isPrefixOf argument.toList then
    some (String.ofList (argument.toList.drop start.length))
  else none

/-- The names among the arguments of a command, and the last value of its option if it has one. -/
def arguments (option : Option String) (value : Option String) :
    List String → Except UsageError (List String × Option String)
  | [] => .ok ([], value)
  | argument :: rest =>
    if argument = "--" then .ok (rest, value)
    else if isOption argument then
      match option with
      | none => .error .unknownOption
      | some option =>
        if argument = option then
          match rest with
          | [] => .error .missingValue
          | text :: rest => arguments (some option) (some text) rest
        else
          match valueAfter? option argument with
          | none => .error .unknownOption
          | some text => arguments (some option) (some text) rest
    else
      match arguments option value rest with
      | .error error => .error error
      | .ok (names, value) => .ok (argument :: names, value)

/-- The indentation that an option value spells, two by default. -/
def indentOf : Option String → Except UsageError Int
  | none => .ok 2
  | some text =>
    match Integer.ofText? 10 text.toList with
    | none => .error .notAnInteger
    | some n => .ok n

/-- The only name among the arguments. -/
def onlyFile : List String → Except UsageError String
  | [] => .error .missingFile
  | [file] => .ok file
  | _ => .error .extraArgument

/-- A command with its arguments. -/
def ofCommand (verbose : Bool) (name : String) (rest : List String) :
    Except UsageError Invocation :=
  if name = "parse" then do
    let (names, _) ← arguments none none rest
    return ⟨verbose, .parse, ← onlyFile names⟩
  else if name = "tree" then do
    let (names, value) ← arguments (some "--indent") none rest
    return ⟨verbose, .tree (← indentOf value), ← onlyFile names⟩
  else if name = "dump" then do
    let (names, _) ← arguments none none rest
    return ⟨verbose, .dump, ← onlyFile names⟩
  else .error .unknownCommand

/-- The invocation that the arguments make up. -/
def ofArguments (args : List String) : Except UsageError Invocation := do
  let (verbose, rest) ← leadingOptions false args
  match rest with
  | [] => .error .missingCommand
  | name :: rest => ofCommand verbose name rest

end Invocation

end Slick
