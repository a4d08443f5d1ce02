import CallManual.CommandLine.Grammar

/-!
# The command line

A task with its own options, and options that may stand in front of the task or behind its name.
What stands behind it goes first.
-/
namespace CallManual.CommandLine

structure CommonOptions where
  config : Option Text := none
  pagesDir : Option Text := none
  verbose : Bool := false
  logFile : Option Text := none
  deriving DecidableEq, Repr

inductive Task
  | lookup (callNames : List Text) (json : Bool)
  | batch (names output : Option Text) (jobs : Option Nat)
  | parse (declaration : Text) (json : Bool)
  | availability (definitions : Text) (objects lists : List (Text × Text))
      (order : Option (List Text)) (json : Bool)
  deriving DecidableEq, Repr

structure Invocation where
  common : CommonOptions
  task : Task
  deriving DecidableEq, Repr

inductive Request
  | help
  | version
  | run (i : Invocation)
  deriving DecidableEq, Repr

def commonOptions : List OptionSpec := [
  { name := "config", effect := .store .path },
  { name := "pages-dir", effect := .store .path },
  { name := "verbose", short := some 'v', effect := .store .flag },
  { name := "log-file", effect := .store .path },
  { name := "help", short := some 'h', effect := .help }]

def jsonOption : OptionSpec := { name := "json", effect := .store .flag }

def helpCommand : Text := "help"

def taskNames : List Text := ["lookup", "batch", "parse", "availability"]

def rootGrammar : Grammar where
  options := commonOptions ++ [{ name := "version", short := some 'V', effect := .version }]
  maxFree := some 0
  commands := taskNames ++ [helpCommand]

def lookupGrammar : Grammar where
  options := jsonOption :: commonOptions
  maxFree := none

def batchGrammar : Grammar where
  options := commonOptions ++ [
    { name := "names", effect := .store .path },
    { name := "output", short := some 'o', effect := .store .path },
    { name := "jobs", short := some 'j', effect := .store .count }]
  maxFree := some 0

def parseGrammar : Grammar where
  options := jsonOption :: commonOptions
  maxFree := some 1

def availabilityGrammar : Grammar where
  options := jsonOption :: commonOptions ++ [
    { name := "definitions", effect := .store .path },
    { name := "library", valueName := "LIBRARIES", effect := .store .pair },
    { name := "symbols", valueName := "SYMBOL_LISTS", effect := .store .pair },
    { name := "order", effect := .store .names }]
  maxFree := some 0

namespace Matches

def value? (m : Matches) (name : Text) : Option Text := m.stored.lookup name

def values (m : Matches) (name : Text) : List Text :=
  m.stored.filterMap fun (k, v) => if k = name then some v else none

def has (m : Matches) (name : Text) : Bool := (m.value? name).isSome

def common (m : Matches) : CommonOptions where
  config := m.value? "config"
  pagesDir := m.value? "pages-dir"
  verbose := m.has "verbose"
  logFile := m.value? "log-file"

def pairs (m : Matches) (name : Text) : List (Text × Text) := (m.values name).filterMap pair?

/-- All names of an option that takes several, separated by commas. -/
def nameList? (m : Matches) (name : Text) : Option (List Text) :=
  if m.has name then some ((m.values name).flatMap fun v => v.splitOn ',') else none

end Matches

/-- Options behind the name of the task go before those in front of it. -/
def CommonOptions.over (inner outer : CommonOptions) : CommonOptions where
  config := inner.config.or outer.config
  pagesDir := inner.pagesDir.or outer.pagesDir
  verbose := inner.verbose || outer.verbose
  logFile := inner.logFile.or outer.logFile

def grammarOf (task : Text) : Grammar :=
  if task = "lookup".toList then lookupGrammar
  else if task = "batch".toList then batchGrammar
  else if task = "parse".toList then parseGrammar
  else availabilityGrammar

/-- The task that was asked for; required arguments must be there. -/
def taskOf (task : Text) (m : Matches) : Except UsageError Task :=
  let json := m.has "json"
  if task = "lookup".toList then
    if m.free.isEmpty then .error .misuse else .ok (.lookup m.free json)
  else if task = "batch".toList then
    .ok (.batch (m.value? "names") (m.value? "output") ((m.value? "jobs").bind count?))
  else if task = "parse".toList then
    match m.free with
    | [d] => .ok (.parse d json)
    | _ => .error .misuse
  else
    match m.value? "definitions" with
    | none => .error .misuse
    | some d =>
      .ok (.availability d (m.pairs "library") (m.pairs "symbols") (m.nameList? "order") json)

def readHelp : List Text → Except UsageError Request
  | [] => .ok .help
  | [c] => if rootGrammar.commands.elem c then .ok .help else .error .misuse
  | _ => .error .misuse

def readTask (outer : Matches) (task : Text) (rest : List Text) : Except UsageError Request := do
  match ← readArguments (grammarOf task) false {} rest with
  | .help => return .help
  | .version => return .version
  | .command .. => throw .misuse
  | .finished m =>
    let m ← m.settle
    let t ← taskOf task m
    let outer ← outer.settle
    return .run { common := m.common.over outer.common, task := t }

def readRequest (args : List Text) : Except UsageError Request := do
  match ← readArguments rootGrammar false {} args with
  | .help => return .help
  | .version => return .version
  | .finished _ => throw .misuse
  | .command m name rest => if name = helpCommand then readHelp rest else readTask m name rest

end CallManual.CommandLine
