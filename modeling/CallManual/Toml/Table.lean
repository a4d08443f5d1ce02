import CallManual.Toml.Basic

/-!
# Building tables

While a document is read, each table remembers how it came about. A table that only the path to
another one mentions is implicit, and a later header may still define it once. A table that a dotted
key makes is dotted; dotted keys may add to it, headers may not.
-/
namespace CallManual.Toml

/-- What a key stands for while the document is read. The latest element of an array of tables comes
first. -/
inductive Node
  | value (v : Toml)
  | table (implicit dotted : Bool) (entries : List (Text × Node))
  | tables (elements : List (List (Text × Node)))

abbrev Entries := List (Text × Node)

namespace Node

mutual

def toToml : Node → Toml
  | value v => v
  | table _ _ entries => .table (entriesToToml entries)
  | tables elements => .array (elementsToToml elements).reverse

def entriesToToml : List (Text × Node) → List (Text × Toml)
  | [] => []
  | (k, n) :: rest => (k, toToml n) :: entriesToToml rest

def elementsToToml : List (List (Text × Node)) → List Toml
  | [] => []
  | es :: rest => .table (entriesToToml es) :: elementsToToml rest

end

end Node

namespace Entries

def put (k : Text) (n : Node) : Entries → Entries
  | [] => [(k, n)]
  | (l, m) :: rest => if l = k then (k, n) :: rest else (l, m) :: put k n rest

def remove (k : Text) (es : Entries) : Entries := es.filter fun e => e.1 != k

/-- Changes the table at a path, which is told whether it is dotted. Tables that are missing on the
way come about as implicit ones. -/
def update {α : Type} (dotted : Bool) (change : Bool → Entries → Option (Entries × α)) :
    List Text → Bool → Entries → Option (Entries × α)
  | [], isDotted, es => change isDotted es
  | k :: ks, _, es =>
    match es.lookup k with
    | none => do
      let (sub, a) ← update dotted change ks dotted []
      some (es.put k (.table true dotted sub), a)
    | some (.table implicit d sub) =>
      if dotted && !implicit then none
      else do
        let (sub, a) ← update dotted change ks d sub
        some (es.put k (.table implicit d sub), a)
    | some (.tables (sub :: older)) => do
      let (sub, a) ← update dotted change ks false sub
      some (es.put k (.tables (sub :: older)), a)
    | _ => none

/-- Sets a key that may be dotted. It must be new, and its table one that keys of this kind make. -/
def set (path : List Text) (k : Text) (v : Toml) (es : Entries) : Option Entries := do
  let change (isDotted : Bool) (es : Entries) : Option (Entries × Unit) :=
    if isDotted = path.isEmpty || (es.lookup k).isSome then none
    else some (es.put k (.value v), ())
  let (es, _) ← update true change path false es
  some es

end Entries

/-- A document up to some line: the tables that are finished, and the one that keys go to. -/
structure Draft where
  root : Entries := []
  current : Entries := []
  path : List Text := []
  inArray : Bool := false

namespace Draft

def set (d : Draft) (path : List Text) (k : Text) (v : Toml) : Option Draft := do
  some { d with current := ← d.current.set path k v }

/-- Puts the current table into its place. -/
def finish (d : Draft) : Option Entries :=
  match d.path.getLast? with
  | none => some d.current
  | some k => do
    let change (_ : Bool) (es : Entries) : Option (Entries × Unit) :=
      match es.lookup k, d.inArray with
      | none, true => some (es.put k (.tables [d.current]), ())
      | some (.tables older), true => some (es.put k (.tables (d.current :: older)), ())
      | none, false => some (es.put k (.table false false d.current), ())
      | some (.table true _ _), false => some (es.put k (.table false false d.current), ())
      | _, _ => none
    let (root, _) ← Entries.update false change d.path.dropLast false d.root
    some root

/-- Starts the table of a header. It may be implicit so far, and then keeps what it has. -/
def openTable (d : Draft) (path : List Text) (k : Text) : Option Draft := do
  let change (_ : Bool) (es : Entries) : Option (Entries × Entries) :=
    match es.lookup k with
    | none => some (es, [])
    | some (.table true false sub) => some (es.remove k, sub)
    | _ => none
  let (root, current) ← Entries.update false change path false (← d.finish)
  some { root, current, path := path ++ [k] }

/-- Starts the next element of an array of tables. -/
def openElement (d : Draft) (path : List Text) (k : Text) : Option Draft := do
  let change (_ : Bool) (es : Entries) : Option (Entries × Unit) :=
    match es.lookup k with
    | none => some (es.put k (.tables []), ())
    | some (.tables _) => some (es, ())
    | _ => none
  let (root, _) ← Entries.update false change path false (← d.finish)
  some { root, path := path ++ [k], inArray := true }

end Draft

end CallManual.Toml
