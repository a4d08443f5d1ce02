import CallManual.Record.Parameter
import CallManual.Resolution.Report

/-!
# Declarations, resolutions and reports as records

A file of earlier results holds a report or a list of resolutions. As a record may also be written
as an array, the report is tried first.
-/
namespace CallManual

namespace Declaration

def toJson (d : Declaration) : Json := .object [
  ("return_type", .string d.returnType),
  ("name", .string d.name),
  ("parameters", .array (d.parameters.map Parameter.toJson))]

def schema : List Record.Field := [
  Record.field "return_type" Record.text,
  Record.field "name" Record.text,
  Record.field "parameters" (Record.elements Parameter.ofReading)]

def ofReading : Decoder Declaration := fun r => do
  match ← Record.values schema r with
  | [returnType, name, parameters] =>
    .ok {
      returnType := ← Record.text returnType
      name := ← Record.text name
      parameters := ← Record.elements Parameter.ofReading parameters }
  | _ => .error .shape

end Declaration

namespace OutcomeKind

def ofWord (w : Text) : Except RecordError OutcomeKind :=
  match ofWord? w with
  | some k => .ok k
  | none => .error (.unknownVariant w)

/-- A kind is its word, or an object whose only member has this name and the value `null`. -/
def ofReading : Decoder OutcomeKind
  | .string (some w) => ofWord w
  | .object ((some w, r) :: rest) closed => do
    let k ← ofWord w
    match r, rest, closed with
    | .null, [], true => .ok k
    | _, _, _ => .error .shape
  | _ => .error .shape

end OutcomeKind

namespace Resolution

def toJson (r : Resolution) : Json := .object [
  ("call_name", .string r.callName),
  ("kind", .string r.kind.word),
  ("definition", (r.declaration?.map Declaration.toJson).getD .null)]

def schema : List Record.Field := [
  Record.field "call_name" Record.text,
  Record.field "kind" OutcomeKind.ofReading,
  Record.field "definition" (Record.nullable Declaration.ofReading)]

def ofReading : Decoder Resolution := fun r => do
  match ← Record.values schema r with
  | [callName, kind, declaration] =>
    let callName ← Record.text callName
    let kind ← OutcomeKind.ofReading kind
    let declaration ← Record.nullable Declaration.ofReading declaration
    match Outcome.of? kind declaration with
    | some outcome => .ok { callName, outcome }
    | none => .error (.refused (.kindMismatch callName kind declaration.isSome))
  | _ => .error .shape

end Resolution

namespace Defect

def toJson (d : Defect) : Json := .object [
  ("call_name", .string d.callName),
  ("message", .string d.message)]

def schema : List Record.Field := [
  Record.field "call_name" Record.text,
  Record.field "message" Record.text]

def ofReading : Decoder Defect := fun r => do
  match ← Record.values schema r with
  | [callName, message] =>
    .ok { callName := ← Record.text callName, message := ← Record.text message }
  | _ => .error .shape

end Defect

namespace Report

def toJson (r : Report) : Json := .object [
  ("results", .array (r.resolutions.map Resolution.toJson)),
  ("defects", .array (r.defects.map Defect.toJson))]

def schema : List Record.Field := [
  Record.field "results" (Record.elements Resolution.ofReading),
  Record.field "defects" (Record.elements Defect.ofReading)]

def ofReading : Decoder Report := fun r => do
  match ← Record.values schema r with
  | [resolutions, defects] =>
    .ok {
      resolutions := ← Record.elements Resolution.ofReading resolutions
      defects := ← Record.elements Defect.ofReading defects }
  | _ => .error .shape

end Report

/-- How deep the containers of a file of results may be nested. -/
def nestingLimit : Nat := 127

/-- The resolutions in a file of results. -/
def Report.resolutionsIn? (t : Text) : Option (List Resolution) :=
  let (r, last) := Json.Reading.ofText t
  if last && r.isStrict nestingLimit then
    match Report.ofReading r with
    | .ok report => some report.resolutions
    | .error _ => (Record.elements Resolution.ofReading r).toOption
  else none

end CallManual
