import CallManual.Host.Log
import CallManual.Page.Source
import CallManual.Resolution.Report

/-!
# Looking up calls

A lookup fetches the page of a call and classifies it. A page that cannot be fetched counts as
missing. A batch looks up many calls and reports on them in the order of their names.
-/
namespace CallManual

namespace Resolution

/-- What the log says about the lines of a synopsis and the choice among its declarations. -/
def synopsisNotes (callName : Text) : Page.Synopsis → List Text
  | .unimplemented => []
  | .declarations lines =>
    let dropped := lines.filterMap fun l =>
      match Declaration.parse l with
      | .ok _ => none
      | .error e =>
        some ("[" ++ callName ++ "] dropping synopsis line `" ++ l ++ "`: " ++ e.message)
    let admitted := (Declaration.admissible callName (candidates lines)).length
    dropped ++ if 2 ≤ admitted then
      [Text.decimal admitted ++ " declarations admissible for " ++ callName] else []

def notes (callName : Text) (page : Option Text) (limit : Nat) : List Text :=
  match page with
  | none => ["[" ++ callName ++ "] no manual entry"]
  | some p => synopsisNotes callName (Page.synopsis p limit)

end Resolution

/-- How pages are fetched, with a note for the log, and how many lines are joined. -/
structure Resolver (m : Type → Type) where
  fetch : Text → m (Except FetchError (Option Text) × Option Text)
  joinLimit : Nat

namespace Resolver

variable {m : Type → Type} [Monad m]

def ofSource (host : Host m) (s : PageSource) (joinLimit : Nat) : Resolver m where
  fetch := s.fetch host
  joinLimit

def lookup (r : Resolver m) (log : Logger m) (callName : Text) :
    m (Except Ambiguity Resolution) := do
  let (fetched, note) ← r.fetch callName
  if let some n := note then log .debug n
  let page ← match fetched with
    | .ok page => pure page
    | .error e => do
      log .warn ("Failed to fetch manual page: " ++ e.message)
      pure none
  for n in Resolution.notes callName page r.joinLimit do log .debug n
  return Resolution.classify callName page r.joinLimit

def startNote (total workers : Nat) : Text :=
  "Resolving " ++ Text.decimal total ++ " call name(s) with " ++ Text.decimal workers ++
    " worker(s)…"

/-- Looks up many calls, on a machine that works on this many at once. -/
def lookupAll (r : Resolver m) (log : Logger m) (workers : Nat) (callNames : List Text) :
    m Report := do
  log .info (startNote callNames.length workers)
  let found ← callNames.mapM fun n => do return (n, ← r.lookup log n)
  let report := Report.ofLookups found
  for d in report.defects do log .error ("[" ++ d.callName ++ "] " ++ d.message)
  log .info ("Batch complete: " ++ report.summary)
  return report

end Resolver

end CallManual
