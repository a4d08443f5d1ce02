import CallManual.Host.Tree

/-!
# Described machines

A machine with a tree of files, a working directory and what has been written to its streams. What
programs do on it is a parameter. The machine is a host whose actions are pure, so a run on it can be
computed and reasoned about.
-/
namespace CallManual

structure Machine where
  files : Tree := {}
  directory : Path := ['/']
  output : Text := []
  console : Text := []
  deriving DecidableEq, Repr

namespace Machine

/-- What the programs of a machine do. They may look at the machine but do not change it. -/
abbrev Programs := Machine → Command → Except IoError Completion

def emit (s : Machine) : Sink → Text → Machine
  | .output, t => { s with output := s.output ++ t }
  | .console, t => { s with console := s.console ++ t }
  | .file p, t =>
    match s.files.append s.directory p (Text.toUtf8 t) with
    | .ok files => { s with files }
    | .error _ => s

/-- Changes the files, which stay as they are when that fails. -/
def change (f : Tree → Path → Except IoError Tree) : StateM Machine (Except IoError Unit) := fun s =>
  match f s.files s.directory with
  | .ok files => (.ok (), { s with files })
  | .error e => (.error e, s)

def host (programs : Programs) (processors : Nat) : Host (StateM Machine) where
  read p := do return (← get).files.read (← get).directory p
  isFile p := do return (← get).files.isFile (← get).directory p
  filesIn p := do return (← get).files.filesIn (← get).directory p
  run c := do return programs (← get) c
  write p t := change fun files d => files.write d p (Text.toUtf8 t)
  makeFile p := change fun files d => files.makeFile d p
  workingDirectory := do return .ok (← get).directory
  processors := return processors
  emit sink t := modify fun s => s.emit sink t

end Machine

end CallManual
