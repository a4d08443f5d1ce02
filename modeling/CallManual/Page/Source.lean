import CallManual.Host.Basic
import CallManual.Settings.Basic
import CallManual.Text.Identifier

/-!
# Where pages come from

Pages are files of a directory, named after the call with or without the section as extension, or
what a manual command prints. Names that are no identifiers are never looked up, since they could be
taken for an option or a path.
-/
namespace CallManual

inductive FetchError
  | invalidName (callName : Text)
  | notStarted (command callName : Text) (cause : IoError)
  | timedOut (command callName : Text) (timeoutMs : Nat)
  | notUtf8 (callName : Text)
  | unreadable (path : Path) (cause : IoError)
  deriving DecidableEq, Repr

def FetchError.message : FetchError → Text
  | invalidName n => "`" ++ n ++ "` is not a valid call name"
  | notStarted c n cause => "failed to run `" ++ c ++ "` for `" ++ n ++ "`: " ++ cause.message
  | timedOut c n ms => "`" ++ c ++ "` timed out after " ++ durationText ms ++ " for `" ++ n ++ "`"
  | notUtf8 n => "manual page for `" ++ n ++ "` is not valid UTF-8"
  | unreadable p cause => "failed to read page " ++ p ++ ": " ++ cause.message

structure PageDirectory where
  root : Path
  manualSection : Text
  deriving DecidableEq, Repr

structure ManualCommand where
  program : Text
  manualSection : Text
  timeoutMs : Nat
  deriving DecidableEq, Repr

inductive PageSource
  | directory (d : PageDirectory)
  | command (c : ManualCommand)
  deriving DecidableEq, Repr

/-- Puts a name into a strictly rising list, unless it is there. -/
def insertName (n : Text) : List Text → List Text
  | [] => [n]
  | x :: xs => if n < x then n :: x :: xs else if n = x then x :: xs else x :: insertName n xs

namespace PageDirectory

variable {m : Type → Type} [Monad m]

def extension (d : PageDirectory) : Text := '.' :: d.manualSection

/-- The call that a file is the page of: its name without the extension, if that is an
identifier. -/
def callName? (d : PageDirectory) (file : Text) : Option Text :=
  if file.head? = some '.' then none
  else
    let name := (Text.dropSuffix? d.extension file).getD file
    if Text.isIdentifier name then some name else none

/-- The calls with pages among these files, rising and without repeats. -/
def callNamesOf (d : PageDirectory) (files : List Text) : List Text :=
  (files.filterMap d.callName?).foldr insertName []

def callNames (d : PageDirectory) (host : Host m) : m (List Text) := do
  return d.callNamesOf (← host.filesIn d.root)

/-- The files that may hold a page, in the order in which they are tried. -/
def candidates (d : PageDirectory) (callName : Text) : List Path :=
  [Path.join d.root (callName ++ d.extension), Path.join d.root callName]

/-- The text of the first of these files that exists. -/
def firstPage (host : Host m) : List Path → m (Except FetchError (Option Text))
  | [] => return .ok none
  | p :: ps => do
    match ← host.readText p with
    | .ok t => return .ok (some t)
    | .error .notFound => firstPage host ps
    | .error e => return .error (.unreadable p e)

/-- The page of a call, `none` when there is none. -/
def fetch (d : PageDirectory) (host : Host m) (callName : Text) :
    m (Except FetchError (Option Text)) :=
  if Text.isIdentifier callName then firstPage host (d.candidates callName)
  else return .error (.invalidName callName)

end PageDirectory

namespace ManualCommand

variable {m : Type → Type} [Monad m]

/-- Pages are rendered plain and 200 columns wide. -/
def invocation (c : ManualCommand) (callName : Text) : Command where
  program := c.program
  arguments := [c.manualSection, callName]
  bindings := [("MANPAGER", some "cat"), ("MANWIDTH", some "200"), ("MAN_KEEP_FORMATTING", none)]
  timeoutMs := some c.timeoutMs

def failureNote (c : ManualCommand) (callName : Text) (status : Nat) : Text :=
  c.program ++ ' ' :: (c.manualSection ++ ' ' :: (callName ++ " exited with exit status: ")) ++
    Text.decimal status

/-- The page that the command prints, `none` when it fails, and a note for the log in that case. -/
def fetch (c : ManualCommand) (host : Host m) (callName : Text) :
    m (Except FetchError (Option Text) × Option Text) := do
  if Text.isIdentifier callName then
    match ← host.run (c.invocation callName) with
    | .error e => return (.error (.notStarted c.program callName e), none)
    | .ok .timedOut => return (.error (.timedOut c.program callName c.timeoutMs), none)
    | .ok (.exited 0 output _) =>
      match Text.ofUtf8? output with
      | some t => return (.ok (some t), none)
      | none => return (.error (.notUtf8 callName), none)
    | .ok (.exited status _ _) => return (.ok none, some (c.failureNote callName status))
  else return (.error (.invalidName callName), none)

end ManualCommand

namespace PageSource

variable {m : Type → Type} [Monad m]

/-- The page of a call, with a note for the log. -/
def fetch (s : PageSource) (host : Host m) (callName : Text) :
    m (Except FetchError (Option Text) × Option Text) :=
  match s with
  | directory d => return (← d.fetch host callName, none)
  | command c => c.fetch host callName

end PageSource

end CallManual
