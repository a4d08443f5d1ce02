import CallManual.Json.Reading
import CallManual.Resolution.Basic

/-!
# Records

A record is a JSON object with fixed fields, all required, or an array of the fields in their order.
Members with other names are passed over. Faults come in the order of the text: a repeated field at
its second name, a missing one at the closing brace.
-/
namespace CallManual

/-- Records that have the right form but stand for no value. -/
inductive Refusal
  | variadicWithFields
  | callbackWithFlags
  | kindMismatch (callName : Text) (kind : OutcomeKind) (hasDeclaration : Bool)
  deriving DecidableEq, Repr

def Refusal.message : Refusal → Text
  | variadicWithFields => "invalid parameter record: variadic parameter carries other fields"
  | callbackWithFlags =>
    "invalid parameter record: function pointer parameter carries qualifier or declarator flags"
  | kindMismatch name kind has =>
    "lookup result for `" ++ name ++ "` is " ++ kind.word ++ " but has_definition=" ++
      if has then Json.trueWord else Json.falseWord

inductive RecordError
  | shape
  | missingField (name : Text)
  | duplicateField (name : Text)
  | unknownVariant (word : Text)
  | refused (cause : Refusal)
  deriving DecidableEq, Repr

def RecordError.message : RecordError → Text
  | shape => "malformed record"
  | missingField f => "missing field `" ++ f ++ "`"
  | duplicateField f => "duplicate field `" ++ f ++ "`"
  | unknownVariant v =>
    "unknown variant `" ++ v ++ "`, expected one of " ++
      Text.join [',', ' '] (OutcomeKind.all.map fun k => "`" ++ k.word ++ "`")
  | refused cause => cause.message

abbrev Decoder (α : Type) := Json.Reading → Except RecordError α

namespace Record

structure Field where
  name : Text
  check : Decoder Unit

/-- A field that holds what `decode` accepts. -/
def field {α : Type} (name : Text) (decode : Decoder α) : Field :=
  ⟨name, fun r => (decode r).map fun _ => ()⟩

def boolean : Decoder Bool
  | .bool b => .ok b
  | _ => .error .shape

def text : Decoder Text
  | .string (some s) => .ok s
  | _ => .error .shape

def elements {α : Type} (decode : Decoder α) : Decoder (List α)
  | .array items closed => do
    let xs ← items.mapM decode
    if closed then .ok xs else .error .shape
  | _ => .error .shape

def nullable {α : Type} (decode : Decoder α) : Decoder (Option α)
  | .null => .ok none
  | r => (decode r).map some

/-- The values of the fields among the members of an object, latest first. -/
def scanMembers (schema : List Field) (seen : List (Text × Json.Reading)) :
    List (Option Text × Json.Reading) → Except RecordError (List (Text × Json.Reading))
  | [] => .ok seen
  | (none, _) :: _ => .error .shape
  | (some k, r) :: ms =>
    match schema.find? fun f => f.name = k with
    | none => if r.isComplete then scanMembers schema seen ms else .error .shape
    | some f =>
      if seen.any fun m => m.1 = k then .error (.duplicateField k)
      else do
        f.check r
        scanMembers schema ((k, r) :: seen) ms

def checkItems : List Field → List Json.Reading → Except RecordError Unit
  | [], [] => .ok ()
  | f :: fs, r :: rs => do
    f.check r
    checkItems fs rs
  | _, _ => .error .shape

/-- The values of the fields, in the order of the schema. -/
def values (schema : List Field) : Decoder (List Json.Reading)
  | .object members closed => do
    let seen ← scanMembers schema [] members
    if closed then
      schema.mapM fun f => match seen.lookup f.name with
        | some r => .ok r
        | none => .error (.missingField f.name)
    else .error .shape
  | .array items closed => do
    checkItems schema items
    if closed then .ok items else .error .shape
  | _ => .error .shape

/-- Decodes a text that holds one value and nothing else. -/
def ofText {α : Type} (decode : Decoder α) (t : Text) : Except RecordError α := do
  let (r, last) := Json.Reading.ofText t
  let a ← decode r
  if last then .ok a else .error .shape

end Record

end CallManual
