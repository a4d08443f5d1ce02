import CallManual.Host.Basic
import CallManual.Settings.Document

/-!
# Finding settings

The settings of a directory come from the nearest settings file, in the directory itself or above
it. Without one they are the defaults.
-/
namespace CallManual

inductive SettingsError
  | unreadable (path : Path) (cause : IoError)
  | invalid (origin : Text)
  deriving DecidableEq, Repr

def SettingsError.message : SettingsError → Text
  | unreadable p cause => "failed to read " ++ p ++ ": " ++ cause.message
  | invalid origin => "invalid settings in " ++ origin

namespace Settings

variable {m : Type → Type} [Monad m]

def fileName : Text := "syscall-synopsis.toml"

/-- The directories to search, nearest first. -/
def searchPath (startIsFile : Bool) (start : Path) : List Path :=
  if startIsFile then
    match Path.parent? start with
    | none => []
    | some d => Path.chain d
  else Path.chain start

/-- The first settings file in these directories. -/
def firstFile (host : Host m) : List Path → m (Option Path)
  | [] => return none
  | d :: ds => do
    let candidate := Path.join d fileName
    if ← host.isFile candidate then return some candidate else firstFile host ds

def find (host : Host m) (start : Path) : m (Option Path) := do
  firstFile host (searchPath (← host.isFile start) start)

def mergeFrom (s : Settings) (text origin : Text) : Except SettingsError Settings :=
  match s.mergeText? text with
  | some s => .ok s
  | none => .error (.invalid origin)

def load (host : Host m) (p : Path) : m (Except SettingsError Settings) := do
  match ← host.readText p with
  | .error e => return .error (.unreadable p e)
  | .ok text => return mergeFrom {} text p

def discover (host : Host m) (start : Path) : m (Except SettingsError Settings) := do
  match ← find host start with
  | some p => load host p
  | none => return .ok {}

end Settings

end CallManual
