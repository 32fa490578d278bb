/-
# Bindery.Files.Program -- programs that work on files.

A program is data: a tree of steps, each of which asks for something and goes on with the answer.
`run` carries a program out on a file tree and is what theorems are about; the command line carries
the same program out on the system's files.  Besides files, a program has two outputs: a log of
messages with levels, and a text.
-/
import Bindery.Files.Tree

namespace Bindery

/-! ## Log messages -/

/-- How important a log message is. -/
inductive LogLevel where
  | error
  | warn
  | info
  | debug
deriving Repr, DecidableEq

namespace LogLevel

/-- The name of a level. -/
def name : LogLevel → String
  | .error => "ERROR"
  | .warn => "WARN"
  | .info => "INFO"
  | .debug => "DEBUG"

/-- How much a level lets through. -/
def rank : LogLevel → Nat
  | .error => 0
  | .warn => 1
  | .info => 2
  | .debug => 3

/-- Whether messages of a level are shown when messages up to `limit` are. -/
def shownUpTo (level limit : LogLevel) : Bool :=
  level.rank ≤ limit.rank

end LogLevel

/-- A log message. -/
structure LogEntry where
  level : LogLevel
  text : String
deriving Repr, DecidableEq

/-- The line of a log message. -/
def LogEntry.line (e : LogEntry) : String :=
  e.level.name ++ " " ++ e.text

/-! ## Programs -/

/-- A program that gives up with an `ε` or returns an `α`. -/
inductive Program (ε α : Type) where
  | done (result : α)
  | fail (failure : ε)
  /-- Asks what kind of thing stands at a path. -/
  | kind (path : Path) (next : Option FileKind → Program ε α)
  /-- Reads a file. -/
  | read (path : Path) (next : Except FileError String → Program ε α)
  /-- Makes a directory. -/
  | makeDirectory (path : Path) (next : Except FileError Unit → Program ε α)
  /-- Makes a file or replaces its content. -/
  | write (path : Path) (text : String) (next : Except FileError Unit → Program ε α)
  | log (entry : LogEntry) (next : Program ε α)
  /-- Adds to the output. -/
  | print (text : String) (next : Program ε α)

namespace Program

/-- One program after another. -/
def bind {ε α β : Type} : Program ε α → (α → Program ε β) → Program ε β
  | done result, k => k result
  | fail failure, _ => fail failure
  | kind path next, k => kind path fun answer => (next answer).bind k
  | read path next, k => read path fun answer => (next answer).bind k
  | makeDirectory path next, k => makeDirectory path fun answer => (next answer).bind k
  | write path text next, k => write path text fun answer => (next answer).bind k
  | log entry next, k => log entry (next.bind k)
  | print text next, k => print text (next.bind k)

instance {ε : Type} : Monad (Program ε) where
  pure := done
  bind := bind

/-! ## Steps -/

/-- What kind of thing stands at a path. -/
def kindOf {ε : Type} (path : Path) : Program ε (Option FileKind) :=
  kind path done

/-- The text of the file at a path. -/
def readText {ε : Type} (path : Path) : Program ε (Except FileError String) :=
  read path done

/-- Makes a directory. -/
def makeOne {ε : Type} (path : Path) : Program ε (Except FileError Unit) :=
  makeDirectory path done

/-- Makes a file or replaces its content. -/
def writeText {ε : Type} (path : Path) (text : String) : Program ε (Except FileError Unit) :=
  write path text done

/-- Logs a message. -/
def report {ε : Type} (level : LogLevel) (text : String) : Program ε Unit :=
  log ⟨level, text⟩ (done ())

/-- Logs messages in order. -/
def reportAll {ε : Type} : List LogEntry → Program ε Unit
  | [] => done ()
  | entry :: rest => log entry (reportAll rest)

/-- Adds to the output. -/
def say {ε : Type} (text : String) : Program ε Unit :=
  print text (done ())

/-- The result of an operation, or giving up with a failure made from its error. -/
def orFail {ε δ α : Type} (failure : δ → ε) : Except δ α → Program ε α
  | .ok result => done result
  | .error e => fail (failure e)

/-! ## Directories with their parents -/

/-- Makes a path a directory; what is missing above it is made too.  The paths above it, nearest
first, are given by their segments, from the last to the first. -/
def makeChain {ε : Type} : Path → List (List String) → Program ε (Except FileError Unit)
  | path, above => do
    match ← makeOne path with
    | .ok _ => pure (.ok ())
    | .error .notFound =>
      match above with
      | [] => pure (.error .notFound)
      | segments :: rest =>
        match ← makeChain (Path.ofReversed segments) rest with
        | .error e => pure (.error e)
        | .ok _ => settle path (← makeOne path)
    | .error e => settle path (.error e)
where
  /-- An error counts for nothing where a directory stands. -/
  settle (path : Path) : Except FileError Unit → Program ε (Except FileError Unit)
    | .ok _ => pure (.ok ())
    | .error e => do
      if (← kindOf path) = some .directory then pure (.ok ()) else pure (.error e)

/-- **`makeDirectories path`** -- makes a directory and whatever is missing above it, unless it is
there. -/
def makeDirectories {ε : Type} (path : Path) : Program ε (Except FileError Unit) :=
  makeChain path path.segmentsAbove

/-! ## Carrying out on a tree -/

/-- What a program has done. -/
structure Outcome (ε α : Type) where
  result : Except ε α
  /-- The tree that it leaves. -/
  tree : FileTree
  /-- The log messages in order. -/
  log : List LogEntry
  output : String

/-- The state of a tree after an operation that may fail, and the answer. -/
def answer (before : FileTree) : Except FileError FileTree → Except FileError Unit × FileTree
  | .ok after => (.ok (), after)
  | .error e => (.error e, before)

/-- **`run p t`** -- carries a program out on a file tree. -/
def run {ε α : Type} : Program ε α → FileTree → Outcome ε α
  | done result, t => ⟨.ok result, t, [], ""⟩
  | fail failure, t => ⟨.error failure, t, [], ""⟩
  | kind path next, t => (next (t.kind? path)).run t
  | read path next, t => (next (t.read path)).run t
  | makeDirectory path next, t =>
    let (reply, after) := answer t (t.makeDirectory path)
    (next reply).run after
  | write path text next, t =>
    let (reply, after) := answer t (t.write path text.toUTF8)
    (next reply).run after
  | log entry next, t =>
    let o := next.run t
    { o with log := entry :: o.log }
  | print text next, t =>
    let o := next.run t
    { o with output := text ++ o.output }

/-- What has been done when a second part is carried out after a first one, unless the first one has
failed. -/
def Outcome.andThen {ε α β : Type} (o : Outcome ε α) (next : α → FileTree → Outcome ε β) :
    Outcome ε β :=
  match o.result with
  | .error failure => ⟨.error failure, o.tree, o.log, o.output⟩
  | .ok result =>
    let after := next result o.tree
    ⟨after.result, after.tree, o.log ++ after.log, o.output ++ after.output⟩

/-- One program after another does what both do. -/
theorem run_bind {ε α β : Type} (p : Program ε α) (k : α → Program ε β) (t : FileTree) :
    (p >>= k).run t = (p.run t).andThen fun result after => (k result).run after := by
  show (p.bind k).run t = _
  induction p generalizing t with
  | done result => simp [bind, run, Outcome.andThen]
  | fail failure => rfl
  | kind path next ih => exact ih _ t
  | read path next ih => exact ih _ t
  | makeDirectory path next ih => exact ih _ _
  | write path text next ih => exact ih _ _
  | log entry next ih =>
    simp only [bind, run, ih t, Outcome.andThen]
    cases (next.run t).result <;> rfl
  | print text next ih =>
    simp only [bind, run, ih t, Outcome.andThen]
    cases (next.run t).result <;> simp [String.append_assoc]

end Program

end Bindery
