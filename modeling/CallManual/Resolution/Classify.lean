import CallManual.Declaration.Parser
import CallManual.Declaration.Selection
import CallManual.Page.Synopsis
import CallManual.Resolution.Basic

/-!
# Classifying a page

Every line of the synopsis is read; lines that are no declaration are dropped. What is left decides
the outcome, and the only failure is an ambiguous choice.
-/
namespace CallManual

/-- Several declarations fit a call name equally well. -/
structure Ambiguity where
  callName : Text
  candidates : List Text
  deriving DecidableEq, Repr

def Ambiguity.message (a : Ambiguity) : Text :=
  (SelectionError.ambiguous a.callName a.candidates).message

namespace Resolution

def candidates (lines : List Text) : List Declaration :=
  lines.filterMap fun l => (Declaration.parse l).toOption

def ofCandidates (callName : Text) : List Declaration → Except Ambiguity Outcome
  | [] => .ok .noDeclaration
  | ds =>
    match Declaration.select callName ds with
    | .ok d => .ok (.found d)
    | .error (.noMatch _) => .ok .noDeclaration
    | .error (.ambiguous n cs) => .error ⟨n, cs⟩

def ofSynopsis (callName : Text) : Page.Synopsis → Except Ambiguity Outcome
  | .unimplemented => .ok .unimplemented
  | .declarations lines => ofCandidates callName (candidates lines)

/-- What a page says about a call name; `none` stands for a call without a page. -/
def classify (callName : Text) (page : Option Text) (limit : Nat) :
    Except Ambiguity Resolution :=
  match page with
  | none => .ok ⟨callName, .noManualEntry⟩
  | some p => (ofSynopsis callName (Page.synopsis p limit)).map fun o => ⟨callName, o⟩

end Resolution

end CallManual
