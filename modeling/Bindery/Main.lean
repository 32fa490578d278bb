/-
# Bindery.Main -- the command.

Programs are carried out on the files of the system.  Log messages and the failure go to the
standard error stream, and everything else to the standard output stream.
-/
import Bindery.CommandLine

namespace Bindery.Host

/-! ## Steps on the system's files -/

/-- The cause of an error of the system. -/
def cause : IO.Error → FileError
  | .noFileOrDirectory .. => .notFound
  | .alreadyExists .. => .exists
  | .inappropriateType _ 20 _ => .notADirectory
  | .inappropriateType _ 21 _ => .isADirectory
  | .invalidArgument _ 36 _ => .nameTooLong
  | e => .other e.toString

/-- The result of a step on a file, or the cause of its failure. -/
def attempt {α : Type} (path : Path) (step : IO α) : IO (Except FileError α) := do
  match FileTree.checkText path with
  | .error e => return .error e
  | .ok _ =>
    match ← step.toBaseIO with
    | .ok result => return .ok result
    | .error e => return .error (cause e)

/-- What kind of thing stands at a path. -/
def kindAt (path : Path) : IO (Option FileKind) := do
  let here ← IO.currentDir
  match ← attempt path (here / path.text).metadata with
  | .ok found => return some (match found.type with
    | .dir => .directory
    | _ => .file)
  | .error _ => return none

/-- The text of a file. -/
def readAt (path : Path) : IO (Except FileError String) := do
  match ← attempt path (IO.FS.readBinFile path.text) with
  | .error e => return .error e
  | .ok content =>
    match String.fromUTF8? content with
    | some text => return .ok text
    | none => return .error .notUtf8

/-! ## Programs -/

/-- **`carryOut limit p`** -- carries a program out, and shows its messages up to a level. -/
def carryOut {ε α : Type} (limit : LogLevel) : Program ε α → IO (Except ε α)
  | .done result => return .ok result
  | .fail failure => return .error failure
  | .kind path next => do carryOut limit (next (← kindAt path))
  | .read path next => do carryOut limit (next (← readAt path))
  | .makeDirectory path next =>
    do carryOut limit (next (← attempt path (IO.FS.createDir path.text)))
  | .write path text next =>
    do carryOut limit (next (← attempt path (IO.FS.writeFile path.text text)))
  | .log entry next => do
    if entry.level.shownUpTo limit then IO.eprintln ("[" ++ entry.level.name ++ "] " ++ entry.text)
    carryOut limit next
  | .print text next => do
    IO.print text
    carryOut limit next

end Bindery.Host

/-- The command: its exit code is 1 for a failure and 2 for wrong arguments. -/
def main (arguments : List String) : IO UInt32 := do
  match Bindery.CommandLine.parse arguments with
  | .error .usage =>
    IO.eprint Bindery.CommandLine.helpText
    return 2
  | .error .help =>
    IO.print Bindery.CommandLine.helpText
    return 0
  | .error .version =>
    IO.print Bindery.CommandLine.versionText
    return 0
  | .ok invocation =>
    let here ← IO.currentDir
    match ← Bindery.Host.carryOut invocation.logLimit (invocation.program ⟨here.toString⟩) with
    | .ok _ => return 0
    | .error failure =>
      IO.eprintln ("error: " ++ failure.message)
      return 1
