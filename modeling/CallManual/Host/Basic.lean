import CallManual.Host.Path
import CallManual.Text.Utf8

/-!
# The host

What the program asks of the machine it runs on, as a record of actions in some monad. All else is
written over these actions, so it can run on a real machine and on one that is only described.
-/
namespace CallManual

inductive IoError
  | notFound
  | permissionDenied
  | notDirectory
  | isDirectory
  | nameTooLong
  | notUtf8
  | nulInPath
  | nulInCommand
  | other (description : Text)
  deriving DecidableEq, Repr

def IoError.message : IoError → Text
  | notFound => "No such file or directory (os error 2)"
  | permissionDenied => "Permission denied (os error 13)"
  | notDirectory => "Not a directory (os error 20)"
  | isDirectory => "Is a directory (os error 21)"
  | nameTooLong => "File name too long (os error 36)"
  | notUtf8 => "stream did not contain valid UTF-8"
  | nulInPath => "file name contained an unexpected NUL byte"
  | nulInCommand => "nul byte found in provided data"
  | other d => d

/-- A program with its arguments. A name bound to nothing is taken out of its environment. -/
structure Command where
  program : Text
  arguments : List Text
  bindings : List (Text × Option Text) := []
  timeoutMs : Option Nat := none
  deriving DecidableEq, Repr

inductive Completion
  | timedOut
  | exited (status : Nat) (output errors : List UInt8)
  deriving DecidableEq, Repr

inductive Sink
  | output
  | console
  | file (path : Path)
  deriving DecidableEq, Repr

structure Host (m : Type → Type) where
  /-- The bytes of a file. -/
  read : Path → m (Except IoError (List UInt8))
  isFile : Path → m Bool
  /-- The names of the regular files directly inside a directory, none when it cannot be read. -/
  filesIn : Path → m (List Text)
  run : Command → m (Except IoError Completion)
  write : Path → Text → m (Except IoError Unit)
  /-- Makes an empty file and the directories that lead to it. A file that is there stays. -/
  makeFile : Path → m (Except IoError Unit)
  workingDirectory : m (Except IoError Path)
  processors : m Nat
  /-- Adds text to a stream or to the end of a file. -/
  emit : Sink → Text → m Unit

namespace Host

variable {m : Type → Type} [Monad m]

def readText (host : Host m) (p : Path) : m (Except IoError Text) := do
  match ← host.read p with
  | .error e => return .error e
  | .ok bytes =>
    match Text.ofUtf8? bytes with
    | some t => return .ok t
    | none => return .error .notUtf8

end Host

end CallManual
