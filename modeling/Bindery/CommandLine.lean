/-
# Bindery.CommandLine -- the arguments of a run.

The arguments name one command.  Flags for the log may stand before the command or after it, once in
each place; together in one place they exclude each other.  After the command stand its own switch
or its own value.  Two dashes end the options.
-/
import Bindery.Project.Generation
import Bindery.Project.IndexFile
import Bindery.Project.References
import Bindery.Project.Scaffold

namespace Bindery

namespace CommandLine

/-! ## Commands -/

/-- What is to be done. -/
inductive Command where
  /-- Start a project, in a directory if one is given. -/
  | start (directory : Option String)
  /-- Write the units, or check them. -/
  | generate (check : Bool)
  /-- Check the constants, against the headers in a directory if one is given. -/
  | checkConstants (directory : Option String)
  /-- Emit the module index, to a file if one is given. -/
  | index (output : Option String)
deriving Repr, DecidableEq

/-- A command and how much it says. -/
structure Invocation where
  command : Command
  verbose : Bool
  quiet : Bool
deriving Repr, DecidableEq

/-- Why arguments name no command to carry out. -/
inductive Interruption where
  /-- They are no arguments of this program. -/
  | usage
  /-- Help is asked for. -/
  | help
  /-- The version is asked for. -/
  | version
deriving Repr, DecidableEq

/-! ## Options -/

/-- The log flags of one place. -/
structure LogFlags where
  verbose : Bool := false
  quiet : Bool := false
deriving Repr, DecidableEq

/-- A flag that is set, unless it is set already. -/
def setOnce (flag : Bool) : Except Interruption Bool :=
  if flag then .error .usage else .ok true

/-- The log flags after a short option. -/
def LogFlags.short (flags : LogFlags) : Char → Except Interruption LogFlags
  | 'v' => do return { flags with verbose := ← setOnce flags.verbose }
  | 'q' => do return { flags with quiet := ← setOnce flags.quiet }
  | 'h' => .error .help
  | _ => .error .usage

/-- The log flags after a long option. -/
def LogFlags.long (flags : LogFlags) : String → Except Interruption LogFlags
  | "verbose" => flags.short 'v'
  | "quiet" => flags.short 'q'
  | "help" => .error .help
  | _ => .error .usage

/-- Refuses flags that exclude each other. -/
def LogFlags.check (flags : LogFlags) : Except Interruption Unit :=
  if flags.verbose && flags.quiet then .error .usage else .ok ()

/-- An argument, by its dashes. -/
inductive Argument where
  /-- Two dashes alone. -/
  | separator
  /-- A long option, with the value after its equals sign. -/
  | long (name : String) (value : Option String)
  /-- Short options behind one dash. -/
  | short (letters : List Char)
  | plain (text : String)

/-- **`Argument.of text`** -- an argument by its dashes.  A single dash is plain. -/
def Argument.of (text : String) : Argument :=
  match text.toList with
  | ['-', '-'] => .separator
  | '-' :: '-' :: rest =>
    .long (String.ofList (rest.takeWhile (· != '=')))
      ((rest.dropWhile (· != '=')).tail?.map String.ofList)
  | '-' :: c :: rest => .short (c :: rest)
  | _ => .plain text

/-! ## Arguments of a command -/

/-- What a command takes. -/
structure Takes where
  /-- The name of its switch. -/
  switch : Option String := none
  /-- The name of the option that takes a value. -/
  option : Option String := none
  /-- Whether it takes a value without an option. -/
  positional : Bool := false

/-- What has been given to a command. -/
structure Given where
  flags : LogFlags := {}
  switched : Bool := false
  value : Option String := none

/-- The value of a command, unless it has one already. -/
def Given.setValue (given : Given) (value : String) : Except Interruption Given :=
  if given.value.isSome then .error .usage else .ok { given with value := some value }

/-- What is given after a long option without a value. -/
def Given.long (given : Given) (takes : Takes) (name : String) : Except Interruption Given := do
  if takes.switch = some name then return { given with switched := ← setOnce given.switched }
  else return { given with flags := ← given.flags.long name }

/-- What is given after an argument without dashes. -/
def Given.plain (given : Given) (takes : Takes) (text : String) : Except Interruption Given :=
  if takes.positional then given.setValue text else .error .usage

/-- What is given by the arguments after a separator. -/
def Given.afterSeparator (takes : Takes) (given : Given) : List String → Except Interruption Given
  | [] => .ok given
  | text :: rest => do Given.afterSeparator takes (← given.plain takes text) rest

/-- **`Given.read takes given arguments`** -- what is given by the arguments of a command.  The
value of an option does not start with a dash, unless it is a single dash. -/
def Given.read (takes : Takes) (given : Given) : List String → Except Interruption Given
  | [] => .ok given
  | text :: rest =>
    match Argument.of text with
    | .separator => given.afterSeparator takes rest
    | .plain text => do Given.read takes (← given.plain takes text) rest
    | .short letters => do
      Given.read takes { given with flags := ← letters.foldlM LogFlags.short given.flags } rest
    | .long name (some value) =>
      if takes.option = some name then do Given.read takes (← given.setValue value) rest
      else .error .usage
    | .long name none =>
      if takes.option = some name then
        match rest with
        | [] => .error .usage
        | next :: others =>
          match Argument.of next with
          | .plain value => do Given.read takes (← given.setValue value) others
          | _ => .error .usage
      else do Given.read takes (← given.long takes name) rest

/-- A command by its name: what it takes, and the command with what has been given. -/
def named? : String → Option (Takes × (Given → Command))
  | "init" => some ({ positional := true }, fun given => .start given.value)
  | "generate" => some ({ switch := some "check" }, fun given => .generate given.switched)
  | "check-constants" =>
    some ({ option := some "extern-dir" }, fun given => .checkConstants given.value)
  | "modules" => some ({ option := some "output" }, fun given => .index given.value)
  | _ => none

/-! ## All arguments -/

/-- A short option before the command. -/
def topShort (flags : LogFlags) (letter : Char) : Except Interruption LogFlags :=
  if letter = 'V' then .error .version else flags.short letter

/-- A long option before the command. -/
def topLong (flags : LogFlags) (name : String) : Except Interruption LogFlags :=
  if name = "version" then .error .version else flags.long name

/-- Whether arguments ask for help about something that there is. -/
def helpRequest : List String → Interruption
  | [] => .help
  | [name] => if (named? name).isSome || name = "help" then .help else .usage
  | _ => .usage

/-- The invocation of a command, from the flags before it and what is given after it. -/
def invocation (before : LogFlags) (given : Given) (command : Given → Command) :
    Except Interruption Invocation := do
  given.flags.check
  before.check
  return ⟨command given, before.verbose || given.flags.verbose, before.quiet || given.flags.quiet⟩

/-- The arguments from the command on, after some flags. -/
def parseFrom (flags : LogFlags) : List String → Except Interruption Invocation
  | [] => .error .usage
  | text :: rest =>
    match Argument.of text with
    | .separator => .error .usage
    | .short letters => do parseFrom (← letters.foldlM topShort flags) rest
    | .long name none => do parseFrom (← topLong flags name) rest
    | .long _ (some _) => .error .usage
    | .plain name =>
      match named? name with
      | some (takes, command) => do invocation flags (← Given.read takes {} rest) command
      | none => .error (if name = "help" then helpRequest rest else .usage)

/-- **`parse arguments`** -- the invocation that the arguments name. -/
def parse (arguments : List String) : Except Interruption Invocation :=
  parseFrom {} arguments

end CommandLine

/-! ## Carrying out -/

open CommandLine

/-- **`program i here`** -- what an invocation does in a working directory. -/
def CommandLine.Invocation.program (i : Invocation) (here : Path) : Action Unit :=
  match i.command with
  | .start directory => Project.start (match directory with
    | some given => here / given
    | none => here)
  | .generate false => do Project.generate (← Project.find here)
  | .generate true => do Project.checkGenerated (← Project.find here)
  | .checkConstants directory => do Project.checkConstants (← Project.find here) directory
  | .index output => do Project.emitIndex (← Project.find here) output

/-- The least important messages that an invocation shows. -/
def CommandLine.Invocation.logLimit (i : Invocation) : LogLevel :=
  if i.verbose then .debug else if i.quiet then .error else .info

/-- The version of the program. -/
def CommandLine.versionText : String := "wrapgen 0.1.0\n"

/-- The help text. -/
def CommandLine.helpText : String :=
  Source.ofLines [
    "Declarative FFI binding generator",
    "",
    "Usage: wrapgen [OPTIONS] <COMMAND>",
    "",
    "Commands:",
    "  init             Write a wrapgen.toml and starter catalogs",
    "  generate         Generate one source unit per variant",
    "  check-constants  Check byte-length constants against reference C headers",
    "  modules          Emit the cfg-gated module index",
    "  help             Print this message or the help of the given subcommand(s)",
    "",
    "Options:",
    "  -v, --verbose  Log debug output",
    "  -q, --quiet    Log errors only",
    "  -h, --help     Print help",
    "  -V, --version  Print version"]

end Bindery
