import CallManual.Availability.Symbols
import CallManual.Text.Utf8
import CallManual.Json.Basic

/-!
# Which environments provide a call

Without an order every environment is probed and a call name is recorded wherever it is provided.
With an order only the listed environments are probed, and the first that provides a call name takes
it. Names that no probed environment provides are listed apart.
-/
namespace CallManual

inductive ScanOrder
  | unordered
  | ordered (names : List Text)
  deriving DecidableEq, Repr

namespace ScanOrder

/-- The order that a list of names asks for. Names are trimmed, blank names and repeats left out;
nothing left means no order. -/
def ofNames (names : List Text) : ScanOrder :=
  match ((names.map Text.trim).filter fun n => !n.isEmpty).eraseDups with
  | [] => .unordered
  | ns => .ordered ns

def names? : ScanOrder → Option (List Text)
  | unordered => none
  | ordered names => some names

/-- The environments to probe; the error is the first listed name that none of them has. -/
def probed (environments : List Environment) : ScanOrder → Except Text (List Environment)
  | unordered => .ok environments
  | ordered names => names.mapM fun n =>
    match environments.find? fun e => e.name = n with
    | some e => .ok e
    | none => .error n

end ScanOrder

/-- The call names found in one environment, in the order asked for. -/
structure Slot where
  environment : Text
  symbols : List Text
  deriving DecidableEq, Repr

structure Availability where
  slots : List Slot
  unavailable : List Text
  deriving DecidableEq, Repr

namespace Availability

/-- Puts a call name in front of the slots of the environments that provide it, or of the first one
only, and says whether there is one. -/
def place (firstOnly : Bool) (callName : Text) :
    List Environment → List Slot → List Slot × Bool
  | e :: es, s :: ss =>
    if e.contains callName then
      let taken := { s with symbols := callName :: s.symbols }
      (taken :: if firstOnly then ss else (place firstOnly callName es ss).1, true)
    else
      let (rest, placed) := place firstOnly callName es ss
      (s :: rest, placed)
  | _, ss => (ss, false)

def scan (firstOnly : Bool) (probed : List Environment) : List Text → Availability
  | [] => { slots := probed.map fun e => ⟨e.name, []⟩, unavailable := [] }
  | callName :: rest =>
    let found := scan firstOnly probed rest
    let (slots, placed) := place firstOnly callName probed found.slots
    { slots, unavailable := if placed then found.unavailable else callName :: found.unavailable }

/-- Scans the environments for the call names. The error is a name in the order that no environment
has. -/
def check (environments : List Environment) (callNames : List Text) (order : ScanOrder) :
    Except Text Availability :=
  (order.probed environments).map fun probed =>
    scan (order.names?.isSome) probed callNames

def underlined (title : Text) : Text :=
  title ++ '\n' :: (List.replicate (Text.byteLength title) '-' ++ ['\n'])

def listed (names : List Text) : Text := names.flatMap fun n => n ++ ['\n']

def renderSlot (s : Slot) : Text :=
  underlined ("Functions in " ++ s.environment ++ "(" ++ Text.decimal s.symbols.length ++ ")") ++
    listed s.symbols

/-- The slots with the most symbols come first; slots with equally many keep their order. -/
def render (a : Availability) : Text :=
  let slots := a.slots.mergeSort fun s t => t.symbols.length ≤ s.symbols.length
  slots.flatMap (fun s => renderSlot s ++ ['\n']) ++
    underlined ("Syscalls not in any of the examined environments (" ++
      Text.decimal a.unavailable.length ++ "):") ++
    listed a.unavailable

def Slot.toJson (s : Slot) : Json := .object [
  ("environment", .string s.environment),
  ("symbols", .array (s.symbols.map .string))]

def toJson (a : Availability) : Json := .object [
  ("environments", .array (a.slots.map Slot.toJson)),
  ("unavailable", .array (a.unavailable.map .string))]

end Availability

end CallManual
