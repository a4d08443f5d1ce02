import CallManual.Resolution.Classify

/-!
# Reports

A report lists the resolutions of a batch in the order of the call names, and apart from them the
names whose lookup ended in a defect.
-/
namespace CallManual

structure Defect where
  callName : Text
  message : Text
  deriving DecidableEq, Repr

structure Report where
  resolutions : List Resolution := []
  defects : List Defect := []
  deriving DecidableEq, Repr

namespace Report

/-- The report of lookups, each given with the call name that was looked up. -/
def ofLookups : List (Text × Except Ambiguity Resolution) → Report
  | [] => {}
  | (_, .ok r) :: rest =>
    let report := ofLookups rest
    { report with resolutions := r :: report.resolutions }
  | (name, .error a) :: rest =>
    let report := ofLookups rest
    { report with defects := ⟨name, a.message⟩ :: report.defects }

def count (r : Report) (k : OutcomeKind) : Nat := r.resolutions.countP fun x => x.kind = k

def summary (r : Report) : Text :=
  Text.join [' '] (OutcomeKind.all.map fun k => k.word ++ '=' :: Text.decimal (r.count k)) ++
    " (" ++ Text.decimal r.defects.length ++ " defect(s))"

end Report

end CallManual
