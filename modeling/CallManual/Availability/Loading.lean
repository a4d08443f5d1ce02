import CallManual.Availability.Scan
import CallManual.Host.Log

/-!
# Loading environments

The symbols of a shared object are listed by a program; those of a list are read from its file.
-/
namespace CallManual

inductive AvailabilityError
  | unknownEnvironment (name : Text)
  | listerNotStarted (path : Path) (cause : IoError)
  | listerFailed (path : Path) (errors : Text)
  | unreadable (path : Path) (cause : IoError)
  deriving DecidableEq, Repr

def AvailabilityError.message : AvailabilityError → Text
  | unknownEnvironment n => "environment `" ++ n ++ "` named in the scan order was not loaded"
  | listerNotStarted p cause => "failed to run `nm` on " ++ p ++ ": " ++ cause.message
  | listerFailed p errors => "`nm` failed on " ++ p ++ ": " ++ errors
  | unreadable p cause => "failed to read symbol list " ++ p ++ ": " ++ cause.message

namespace Environment

variable {m : Type → Type} [Monad m]

def loadList (host : Host m) (name : Text) (p : Path) :
    m (Except AvailabilityError Environment) := do
  match ← host.readText p with
  | .error e => return .error (.unreadable p e)
  | .ok t => return .ok (ofList name (Text.nameList t))

/-- Lists the dynamic symbols that an object defines. -/
def lister (p : Path) : Command where
  program := "nm"
  arguments := ["-D", "--defined-only", p]

def countNote (e : Environment) (p : Path) : Text :=
  e.name ++ ": " ++ Text.decimal e.size ++ " function symbol(s) in " ++ p

def loadObject (host : Host m) (log : Logger m) (name : Text) (p : Path) :
    m (Except AvailabilityError Environment) := do
  match ← host.run (lister p) with
  | .error e => return .error (.listerNotStarted p e)
  | .ok (.exited 0 output _) =>
    let e := ofList name (Symbols.ofListing (Text.ofUtf8Lossy output))
    log .debug (e.countNote p)
    return .ok e
  | .ok (.exited _ _ errors) =>
    return .error (.listerFailed p (Text.trim (Text.ofUtf8Lossy errors)))
  | .ok .timedOut => return .error (.listerFailed p [])

def load (host : Host m) (log : Logger m) (l : Library) :
    m (Except AvailabilityError Environment) :=
  match l.kind with
  | .sharedObject => loadObject host log l.name l.path
  | .symbolList => loadList host l.name l.path

/-- Loads environments in their order, up to the first that fails. -/
def loadAll (host : Host m) (log : Logger m) :
    List Library → m (Except AvailabilityError (List Environment))
  | [] => return .ok []
  | l :: ls => do
    match ← load host log l with
    | .error e => return .error e
    | .ok e =>
      match ← loadAll host log ls with
      | .error e => return .error e
      | .ok es => return .ok (e :: es)

end Environment

end CallManual
