import CallManual.Availability.Loading
import CallManual.CommandLine.Arguments
import CallManual.Parameter.Inspect
import CallManual.Record.Resolution
import CallManual.Resolution.Lookup
import CallManual.Settings.Discovery
import CallManual.Text.Control

/-!
# Running a command line

Settings are loaded first and the log starts with them, for which its file must open. Each task then
writes its result to the output or to a file; what keeps it from doing so ends the run with a
message.
-/
namespace CallManual.CommandLine

/-- How a run ends. -/
inductive Ending
  | success
  | failed (message : Text)
  | misused (e : UsageError)
  | noLog (file : Path) (cause : IoError)
  deriving DecidableEq, Repr

namespace Ending

def status : Ending → Nat
  | success => 0
  | failed _ => 1
  | misused _ => 2
  | noLog .. => 101

def bold (t : Text) : Text := "\x1b[1m" ++ t ++ "\x1b[0m"

/-- The complaint about a value, which may hold control sequences of its own, with emphasis. -/
def badPairText (usage value : Text) : Text :=
  bold "error:" ++ " invalid value '" ++ bold value ++ "' for '" ++ bold usage ++
    "': expected `name=path`, got `" ++ value ++
    "`\n\nFor more information, try '" ++ bold "--help" ++ "'.\n"

def complaint? : Ending → Option Text
  | success => none
  | failed message => some ("Error: " ++ message ++ "\n")
  | misused (.badPair usage value) => some (Text.withoutControls (badPairText usage value))
  | misused .misuse => some "error: the arguments do not fit the usage; try --help\n"
  | noLog file cause => some ("cannot open the log `" ++ file ++ "`: " ++ cause.message ++ "\n")

end Ending

def versionText : Text := "0.1.0"

def usageText : Text :=
  "Usage: syscall-synopsis [OPTIONS] <COMMAND>\n\n" ++
  "Commands:\n" ++
  "  lookup        Resolve call names and print their declarations\n" ++
  "  batch         Resolve a list of call names and write the results as JSON\n" ++
  "  parse         Parse a single declaration line\n" ++
  "  availability  Report which environments provide a function for each call name\n\n" ++
  "Options:\n" ++
  "      --config <CONFIG>        Settings file\n" ++
  "      --pages-dir <PAGES_DIR>  Read pages from this directory instead of running the command\n" ++
  "  -v, --verbose\n" ++
  "      --log-file <LOG_FILE>\n" ++
  "  -h, --help\n" ++
  "  -V, --version\n"

variable {m : Type → Type} [Monad m]

def loadSettings (host : Host m) (config : Option Path) : m (Except Text Settings) := do
  match config with
  | some p => return (← Settings.load host p).mapError SettingsError.message
  | none =>
    match ← host.workingDirectory with
    | .error _ => return .error "Failed to resolve the working directory"
    | .ok d => return (← Settings.discover host d).mapError SettingsError.message

def pageSource (pagesDir : Option Path) (s : Settings) : PageSource :=
  match pagesDir with
  | some d => .directory ⟨d, s.manual.manualSection⟩
  | none => .command ⟨s.manual.command, s.manual.manualSection, s.manual.timeoutMs⟩

/-- Writes a result to a file, or as a line to the output. -/
def writeResult (host : Host m) (log : Logger m) (file : Option Path) (t : Text) : m Ending := do
  match file with
  | none =>
    host.emit .output (t ++ ['\n'])
    return .success
  | some p =>
    match ← host.write p t with
    | .error _ => return .failed ("Failed to write `" ++ p ++ "`")
    | .ok _ =>
      log .info ("Wrote " ++ p)
      return .success

/-- Looks up names one after another. Keeps the resolutions and counts the defects. -/
def collectLookups (log : Logger m) (r : Resolver m) : List Text → m (List Resolution × Nat)
  | [] => return ([], 0)
  | n :: names => do
    match ← r.lookup log n with
    | .ok x =>
      let (resolutions, defects) ← collectLookups log r names
      return (x :: resolutions, defects)
    | .error a =>
      log .error ("[" ++ n ++ "] " ++ a.message)
      let (resolutions, defects) ← collectLookups log r names
      return (resolutions, defects + 1)

def runLookup (host : Host m) (log : Logger m) (r : Resolver m) (names : List Text)
    (json : Bool) : m Ending := do
  let (resolutions, defects) ← collectLookups log r names
  if json then
    host.emit .output ((Json.array (resolutions.map Resolution.toJson)).pretty ++ ['\n'])
  else
    for x in resolutions do host.emit .output (x.render ++ ['\n', '\n'])
  if defects = 0 then return .success
  else return .failed (Text.decimal defects ++ " lookup(s) ended in a defect")

/-- The call names of a batch: from a file with one on each line, or of every page. -/
def batchNames (host : Host m) (names : Option Path) (pagesDir : Option Path) (s : Settings) :
    m (Except Text (List Text)) := do
  match names, pagesDir with
  | some p, _ =>
    match ← host.readText p with
    | .error _ => return .error ("Failed to read call names from `" ++ p ++ "`")
    | .ok t => return .ok (Text.nameList t)
  | none, some d =>
    let directory : PageDirectory := ⟨d, s.manual.manualSection⟩
    return .ok (← directory.callNames host)
  | none, none => return .error "`batch` needs `--names` or `--pages-dir`"

def runBatch (host : Host m) (log : Logger m) (pagesDir : Option Path) (s : Settings)
    (names output : Option Path) : m Ending := do
  match ← batchNames host names pagesDir s with
  | .error e => return .failed e
  | .ok callNames =>
    let r := Resolver.ofSource host (pageSource pagesDir s) s.lookup.joinLimit
    let workers := s.lookup.workers (← host.processors)
    let report ← r.lookupAll log workers callNames
    writeResult host log output report.toJson.pretty

def parsedText (d : Declaration) : Text :=
  d.render ++ '\n' :: d.parameters.zipIdx.flatMap fun (p, i) =>
    "  [" ++ Text.decimal i ++ "] " ++ p.inspect ++ "\n"

def runParse (host : Host m) (log : Logger m) (declaration : Text) (json : Bool) : m Ending := do
  match Declaration.parse declaration with
  | .error e => return .failed e.message
  | .ok d =>
    if json then writeResult host log none d.toJson.pretty
    else
      host.emit .output (parsedText d)
      return .success

/-- The environments of the settings and those of the command line. A later one takes the place of
all earlier ones of its name. -/
def libraries (configured : List Library) (objects lists : List (Text × Path)) : List Library :=
  let given := objects.map (fun (n, p) => ⟨n, p, .sharedObject⟩) ++
    lists.map fun (n, p) => ⟨n, p, .symbolList⟩
  given.foldl (fun ls l => ls.filter (fun k => k.name != l.name) ++ [l]) configured

/-- The call names of a file of results. -/
def definitionNames (host : Host m) (p : Path) : m (Except Text (List Text)) := do
  match ← host.readText p with
  | .error _ => return .error ("Failed to read `" ++ p ++ "`")
  | .ok t =>
    match Report.resolutionsIn? t with
    | none => return .error ("`" ++ p ++ "` is not a batch result file")
    | some rs => return .ok (rs.map Resolution.callName)

def noEnvironments : Text :=
  "no environments configured; pass `--library name=path` or `--symbols name=path`"

def runAvailability (host : Host m) (log : Logger m) (callNames : List Text)
    (ls : List Library) (order : ScanOrder) : m (Except Text Availability) := do
  match ← Environment.loadAll host log ls with
  | .error e => return .error e.message
  | .ok environments =>
    match Availability.check environments callNames order with
    | .error n => return .error (AvailabilityError.unknownEnvironment n).message
    | .ok a =>
      for n in a.unavailable do log .debug (n ++ " is not available in any environment")
      return .ok a

def runTask (host : Host m) (log : Logger m) (common : CommonOptions) (s : Settings) :
    Task → m Ending
  | .lookup names json =>
    runLookup host log (Resolver.ofSource host (pageSource common.pagesDir s) s.lookup.joinLimit)
      names json
  | .batch names output jobs =>
    runBatch host log common.pagesDir (s.withJobs jobs) names output
  | .parse declaration json => runParse host log declaration json
  | .availability definitions objects lists order json => do
    match ← definitionNames host definitions with
    | .error e => return .failed e
    | .ok callNames =>
      let ls := libraries s.availability.libraries objects lists
      if ls.isEmpty then return .failed noEnvironments
      else
        let order := ScanOrder.ofNames (order.getD s.availability.order)
        match ← runAvailability host log callNames ls order with
        | .error e => return .failed e
        | .ok a =>
          if json then writeResult host log none a.toJson.pretty
          else
            host.emit .output a.render
            return .success

def settingsNote (s : Settings) : Text :=
  "syscall-synopsis v" ++ versionText ++ " with " ++ s.describe

/-- Runs a task with its log, whose file is open. -/
def runLogged (host : Host m) (i : Invocation) (s : Settings) (file : Option Path) : m Ending := do
  let threshold := if i.common.verbose then .debug else s.logLevel
  let log := Logger.ofHost host threshold file
  log .debug (settingsNote s)
  runTask host log i.common s i.task

def runInvocation (host : Host m) (i : Invocation) : m Ending := do
  match ← loadSettings host i.common.config with
  | .error e => return .failed e
  | .ok s =>
    match i.common.logFile.map Logger.filePath with
    | none => runLogged host i s none
    | some file =>
      match ← host.makeFile file with
      | .error e => return .noLog file e
      | .ok _ => runLogged host i s (some file)

/-- Runs the program with these arguments. -/
def run (host : Host m) (args : List Text) : m Ending := do
  match readRequest args with
  | .error e => return .misused e
  | .ok .help =>
    host.emit .output usageText
    return .success
  | .ok .version =>
    host.emit .output ("syscall-synopsis " ++ versionText ++ "\n")
    return .success
  | .ok (.run i) => runInvocation host i

end CallManual.CommandLine
