import CallManual.Declaration.Basic

/-!
# Resolutions of call names

A resolution says what became of one call name. A declaration comes with the outcome `found` and
with no other, so the kind of an outcome decides whether there is one.
-/
namespace CallManual

inductive Outcome
  | noManualEntry
  | noDeclaration
  | unimplemented
  | found (d : Declaration)
  deriving DecidableEq, Repr

inductive OutcomeKind
  | noManualEntry
  | noDeclaration
  | unimplemented
  | found
  deriving DecidableEq, Repr

namespace OutcomeKind

/-- All kinds in the order of summaries. -/
def all : List OutcomeKind := [noManualEntry, noDeclaration, unimplemented, found]

def word : OutcomeKind → Text
  | noManualEntry => "NoManualEntry"
  | noDeclaration => "NoDeclarationFound"
  | unimplemented => "Unimplemented"
  | found => "Found"

def ofWord? (w : Text) : Option OutcomeKind := all.find? fun k => k.word = w

end OutcomeKind

namespace Outcome

def kind : Outcome → OutcomeKind
  | noManualEntry => .noManualEntry
  | noDeclaration => .noDeclaration
  | unimplemented => .unimplemented
  | found _ => .found

def declaration? : Outcome → Option Declaration
  | found d => some d
  | _ => none

/-- The outcome of a kind and a declaration, when the two belong together. -/
def of? : OutcomeKind → Option Declaration → Option Outcome
  | .found, some d => some (found d)
  | .noManualEntry, none => some noManualEntry
  | .noDeclaration, none => some noDeclaration
  | .unimplemented, none => some unimplemented
  | _, _ => none

def render : Outcome → Text
  | noManualEntry => "No man entry found for this system call name."
  | noDeclaration => "Definition not found in man page."
  | unimplemented => "System call is Unimplemented"
  | found d => d.render

end Outcome

structure Resolution where
  callName : Text
  outcome : Outcome
  deriving DecidableEq, Repr

namespace Resolution

def kind (r : Resolution) : OutcomeKind := r.outcome.kind

def declaration? (r : Resolution) : Option Declaration := r.outcome.declaration?

def render (r : Resolution) : Text :=
  "Syscall Name: " ++ r.callName ++ "\nDefinition:   " ++ r.outcome.render

end Resolution

end CallManual
