import CallManual.Declaration.Basic
import CallManual.Text.Identifier

/-!
# Choosing the declaration of a call

A page may declare several calls. A declaration is admissible when its name, after dropping one
leading underscore that only the page writes, is a prefix of the call name. A single admissible
declaration is chosen; of several, the one of the same name with the most parameters; else the
only one named as the call without its version digits.
-/
namespace CallManual

inductive SelectionError
  | noMatch (callName : Text)
  | ambiguous (callName : Text) (candidates : List Text)
  deriving DecidableEq, Repr

def SelectionError.message : SelectionError → Text
  | noMatch n => "no declaration matches `" ++ n ++ "`"
  | ambiguous n cs => "`" ++ n ++ "` matches several versioned declarations: " ++ Text.join "; " cs

namespace Declaration

/-- Drops one leading underscore when the rest is a prefix of the call name. -/
def withPublicName (callName : Text) (d : Declaration) : Declaration :=
  match d.name with
  | '_' :: c :: rest => if (c :: rest).isPrefixOf callName then { d with name := c :: rest } else d
  | _ => d

def admissible (callName : Text) (candidates : List Declaration) : List Declaration :=
  (candidates.map (withPublicName callName)).filter fun d => d.name.isPrefixOf callName

/-- The earliest declaration among those with the most parameters. -/
def richest? : List Declaration → Option Declaration
  | [] => none
  | d :: ds =>
    match richest? ds with
    | none => some d
    | some e => some (if d.arity < e.arity then e else d)

/-- The call name without the digits at its end. -/
def unversioned (callName : Text) : Text :=
  (callName.reverse.dropWhile Text.isDigit).reverse

def selectVersioned (callName : Text) (ds : List Declaration) :
    Except SelectionError Declaration :=
  let base := unversioned callName
  if base.isEmpty || base = callName then .error (.noMatch callName)
  else
    match ds.filter fun d => d.name = base with
    | [] => .error (.noMatch callName)
    | [d] => .ok d
    | synonyms => .error (.ambiguous callName (synonyms.map render))

def select (callName : Text) (candidates : List Declaration) : Except SelectionError Declaration :=
  match admissible callName candidates with
  | [] => .error (.noMatch callName)
  | [d] => .ok d
  | ds =>
    match richest? (ds.filter fun d => d.name = callName) with
    | some d => .ok d
    | none => selectVersioned callName ds

end Declaration

end CallManual
