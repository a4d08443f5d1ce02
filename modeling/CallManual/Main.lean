import CallManual.CommandLine.Run

/-!
# The program

The machine that the program is started on, as a host. Programs are not started from here: a page
that only a manual command can print counts as missing, and environments come from symbol lists.
-/
namespace CallManual.Main

def cause (e : IO.Error) : IoError :=
  match e with
  | .noFileOrDirectory .. => .notFound
  | .permissionDenied .. => .permissionDenied
  | .inappropriateType _ 21 _ => .isDirectory
  | .inappropriateType .. => .notDirectory
  | .invalidArgument _ 36 _ => .nameTooLong
  | e => .other (toString e).toList

def attempt {α : Type} (action : IO α) : IO (Except IoError α) := do
  try return .ok (← action)
  catch e => return .error (cause e)

def read (p : Path) : IO (Except IoError (List UInt8)) :=
  if p.elem '\x00' then return .error .nulInPath
  else attempt do return (← IO.FS.readBinFile (String.ofList p)).toList

def isFile (p : Path) : IO Bool := do
  let here ← IO.currentDir
  let found ← attempt (here / String.ofList p).metadata
  return match found with
    | .ok d => d.type == .file
    | .error _ => false

def filesIn (p : Path) : IO (List Text) := do
  let here ← IO.currentDir
  match ← attempt (here / String.ofList p).readDir with
  | .error _ => return []
  | .ok entries =>
    let files ← entries.toList.filterM fun entry => do
      let found ← attempt entry.path.metadata
      return match found with
        | .ok d => d.type == .file
        | .error _ => false
    return files.map fun entry => entry.fileName.toList

def append (p : Path) (t : Text) : IO Unit := do
  let handle ← IO.FS.Handle.mk (String.ofList p) .append
  handle.putStr (String.ofList t)

def makeFile (p : Path) : IO (Except IoError Unit) := do
  if let .ok _ ← attempt (append p []) then return .ok ()
  let directory := (Path.parent? p).getD []
  attempt do
    unless directory.isEmpty do IO.FS.createDirAll (String.ofList directory)
    append p []

def emit (sink : Sink) (t : Text) : IO Unit := do
  match sink with
  | .output => IO.print (String.ofList t)
  | .console => IO.eprint (String.ofList t)
  | .file p => let _ ← attempt (append p t)

/-- The machine that the program is started on. Lookups run one after another. -/
def host : Host IO where
  read := read
  isFile := isFile
  filesIn := filesIn
  run _ := return .error (.other "programs cannot be started")
  write p t := attempt (IO.FS.writeFile (String.ofList p) (String.ofList t))
  makeFile := makeFile
  workingDirectory := attempt do return (← IO.currentDir).toString.toList
  processors := return 1
  emit := emit

end CallManual.Main

def main (args : List String) : IO UInt32 := do
  let ending ← CallManual.CommandLine.run CallManual.Main.host (args.map fun a => a.toList)
  if let some complaint := ending.complaint? then IO.eprint (String.ofList complaint)
  return UInt32.ofNat ending.status
