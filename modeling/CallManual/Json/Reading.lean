import CallManual.Json.Token

/-!
# Reading JSON texts

Reading never fails. A text that stops being well formed is read up to that place: the containers
open there are marked as not closed, and a value that did not come is `missing`. Whoever interprets
a reading from left to right so meets faults of form and faults of meaning in the order of the text.
-/
namespace CallManual.Json

inductive Reading
  | null
  | bool (b : Bool)
  | number (n : Number)
  | string (s : Option Text)
  | array (items : List Reading) (closed : Bool)
  | object (members : List (Option Text × Reading)) (closed : Bool)
  | missing

namespace Reading

/-- A container that is open, its contents in reverse. The key of an open object belongs to the
value that is read next. -/
inductive Frame
  | items (done : List Reading)
  | members (done : List (Option Text × Reading)) (key : Option Text)

/-- What may come next inside the innermost container. -/
inductive Mode
  | value
  | firstItem
  | firstKey
  | key
  | colon
  | separator
  deriving DecidableEq, Repr

inductive State
  | expect (mode : Mode) (stack : List Frame)
  | finished (r : Reading)

/-- Puts a value that is not complete into its containers, none of which is closed. -/
def graft : List Frame → Reading → Reading
  | [], r => r
  | .items done :: stack, r => graft stack (.array (r :: done).reverse false)
  | .members done key :: stack, r => graft stack (.object ((key, r) :: done).reverse false)

/-- What is read when the text breaks off. -/
def cut : Mode → List Frame → Reading
  | .value, stack | .colon, stack => graft stack .missing
  | _, [] => .missing
  | _, .items done :: stack => graft stack (.array done.reverse false)
  | _, .members done _ :: stack => graft stack (.object done.reverse false)

/-- Goes on after a complete value. -/
def offer (r : Reading) : List Frame → State
  | [] => .finished r
  | .items done :: stack => .expect .separator (.items (r :: done) :: stack)
  | .members done key :: stack => .expect .separator (.members ((key, r) :: done) none :: stack)

def begin? (stack : List Frame) : Token → Option State
  | .null => some (offer .null stack)
  | .bool b => some (offer (.bool b) stack)
  | .number n => some (offer (.number n) stack)
  | .string s => some (offer (.string s) stack)
  | .openArray => some (.expect .firstItem (.items [] :: stack))
  | .openObject => some (.expect .firstKey (.members [] none :: stack))
  | _ => none

def close? : List Frame → Token → Option State
  | .items done :: stack, .closeArray => some (offer (.array done.reverse true) stack)
  | .members done _ :: stack, .closeObject => some (offer (.object done.reverse true) stack)
  | _, _ => none

def key? : List Frame → Token → Option State
  | .members done _ :: stack, .string k => some (.expect .colon (.members done k :: stack))
  | _, _ => none

def step? (mode : Mode) (stack : List Frame) (t : Token) : Option State :=
  match mode with
  | .value => begin? stack t
  | .firstItem => if t = .closeArray then close? stack t else begin? stack t
  | .firstKey => if t = .closeObject then close? stack t else key? stack t
  | .key => key? stack t
  | .colon => if t = .colon then some (.expect .value stack) else none
  | .separator =>
    if t = .comma then
      match stack with
      | .items _ :: _ => some (.expect .value stack)
      | .members .. :: _ => some (.expect .key stack)
      | [] => none
    else close? stack t

/-- Reads one value, and says whether nothing follows it. -/
def run : State → List Token → Reading × Bool
  | .finished r, ts => (r, ts.isEmpty)
  | .expect mode stack, [] => (cut mode stack, false)
  | .expect mode stack, t :: ts =>
    match step? mode stack t with
    | some s => run s ts
    | none => (cut mode stack, false)

def ofText (t : Text) : Reading × Bool := run (.expect .value []) (tokens t)

end Reading

namespace Reading

mutual

/-- The text did not break off inside this value. -/
def isComplete : Reading → Bool
  | missing => false
  | array items closed => closed && itemsComplete items
  | object members closed => closed && membersComplete members
  | _ => true

def itemsComplete : List Reading → Bool
  | [] => true
  | r :: rs => isComplete r && itemsComplete rs

def membersComplete : List (Option Text × Reading) → Bool
  | [] => true
  | (_, r) :: ms => isComplete r && membersComplete ms

end

mutual

/-- A complete value whose strings are all texts, whose numbers are finite and whose containers are
nested at most `depth` deep. -/
def isStrict (depth : Nat) : Reading → Bool
  | missing => false
  | number n => n.isFinite
  | string s => s.isSome
  | array items closed => closed && 0 < depth && itemsStrict (depth - 1) items
  | object members closed => closed && 0 < depth && membersStrict (depth - 1) members
  | _ => true

def itemsStrict (depth : Nat) : List Reading → Bool
  | [] => true
  | r :: rs => isStrict depth r && itemsStrict depth rs

def membersStrict (depth : Nat) : List (Option Text × Reading) → Bool
  | [] => true
  | (k, r) :: ms => k.isSome && isStrict depth r && membersStrict depth ms

end

end Reading

end CallManual.Json
