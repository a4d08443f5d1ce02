import CallManual.Host.Basic

/-!
# Trees of files

A tree holds directories and files at places, and a place is the list of names that leads to it from
the root. Paths are followed name by name through directories; what can go wrong on the way is the
same as on a real machine.
-/
namespace CallManual

inductive Entry
  | directory
  | file (bytes : List UInt8)
  deriving DecidableEq, Repr

abbrev Place := List Text

structure Tree where
  entries : List (Place × Entry) := []
  deriving DecidableEq, Repr

namespace Tree

def maxNameLength : Nat := 255

def maxPathLength : Nat := 4095

/-- The root is always a directory. -/
def get? (t : Tree) (place : Place) : Option Entry :=
  if place.isEmpty then some .directory else t.entries.lookup place

/-- Follows one name. Empty names and dots stay, two dots go up. -/
def step (t : Tree) (place : Place) (name : Text) : Except IoError Place :=
  match t.get? place with
  | none => .error .notFound
  | some (.file _) => .error .notDirectory
  | some .directory =>
    if Path.isSkipped name then .ok place
    else if name = ['.', '.'] then .ok place.dropLast
    else if maxNameLength < Text.byteLength name then .error .nameTooLong
    else if (t.get? (place ++ [name])).isSome then .ok (place ++ [name])
    else .error .notFound

def walk (t : Tree) : Place → List Text → Except IoError Place
  | place, [] => .ok place
  | place, name :: names =>
    match t.step place name with
    | .error e => .error e
    | .ok next => walk t next names

/-- What is wrong with a path before any of it is followed. -/
def pathFault? (p : Path) : Option IoError :=
  if p.elem '\x00' then some .nulInPath
  else if p.isEmpty then some .notFound
  else if maxPathLength < Text.byteLength p then some .nameTooLong
  else none

/-- The place of a path as seen from a directory. -/
def locate (t : Tree) (directory p : Path) : Except IoError Place :=
  match pathFault? p with
  | some e => .error e
  | none => t.walk [] ((Path.join directory p).splitOn '/')

def read (t : Tree) (directory p : Path) : Except IoError (List UInt8) :=
  match t.locate directory p with
  | .error e => .error e
  | .ok place =>
    match t.get? place with
    | some (.file bytes) => .ok bytes
    | some .directory => .error .isDirectory
    | none => .error .notFound

def isFile (t : Tree) (directory p : Path) : Bool := (t.read directory p).isOk

/-- The name of a file that stands directly inside a place. -/
def fileInside? (place : Place) : Place × Entry → Option Text
  | (q, .file _) => if q.dropLast = place then q.getLast? else none
  | (_, .directory) => none

def filesIn (t : Tree) (directory p : Path) : List Text :=
  match t.locate directory p with
  | .error _ => []
  | .ok place => t.entries.filterMap (fileInside? place)

/-- Sets what stands at a place. -/
def set (t : Tree) (place : Place) (e : Entry) : Tree :=
  { entries := (place, e) :: t.entries.filter fun x => x.1 != place }

/-- Takes away a place and all places below it. -/
def remove (t : Tree) (place : Place) : Tree :=
  { entries := t.entries.filter fun x => !place.isPrefixOf x.1 }

/-- The place of a file to be written. Its directory must be there. -/
def target (t : Tree) (directory p : Path) : Except IoError Place :=
  match t.locate directory p with
  | .ok place =>
    match t.get? place with
    | some (.file _) => .ok place
    | _ => .error .isDirectory
  | .error .notFound =>
    match ((Path.join directory p).splitOn '/').reverse with
    | [] => .error .notFound
    | name :: above =>
      match t.walk [] above.reverse with
      | .error e => .error e
      | .ok place => if name.isEmpty then .error .isDirectory else .ok (place ++ [name])
  | .error e => .error e

def write (t : Tree) (directory p : Path) (bytes : List UInt8) : Except IoError Tree :=
  if p.isEmpty then .error .notFound
  else (t.target directory p).map fun place => t.set place (.file bytes)

/-- Adds to the end of a file, which may be new. -/
def append (t : Tree) (directory p : Path) (bytes : List UInt8) : Except IoError Tree :=
  match t.read directory p with
  | .ok old => t.write directory p (old ++ bytes)
  | .error _ => t.write directory p bytes

/-- Follows names and makes a directory wherever nothing stands yet. -/
def makeWay (t : Tree) : Place → List Text → Tree
  | _, [] => t
  | place, name :: names =>
    match t.step place name with
    | .ok next => makeWay t next names
    | .error .notFound => makeWay (t.set (place ++ [name]) .directory) (place ++ [name]) names
    | .error _ => t

def makeDirectory (t : Tree) (directory p : Path) : Tree :=
  t.makeWay [] ((Path.join directory p).splitOn '/')

/-- Makes the directories that lead to a path. -/
def makeParents (t : Tree) (directory p : Path) : Tree :=
  t.makeWay [] ((Path.join directory p).splitOn '/').dropLast

/-- Makes an empty file, and where it cannot stand yet, the directories that lead to it. A file that
is there stays as it is. -/
def makeFile (t : Tree) (directory p : Path) : Except IoError Tree :=
  match t.append directory p [] with
  | .ok u => .ok u
  | .error _ => (t.makeParents directory p).append directory p []

theorem get?_set_self {t : Tree} {place : Place} {e : Entry} (h : place ≠ []) :
    (t.set place e).get? place = some e := by
  simp [get?, set, h]

theorem lookup_filter_ne {place q : Place} (h : q ≠ place) (es : List (Place × Entry)) :
    (es.filter fun x => x.1 != place).lookup q = es.lookup q := by
  induction es with
  | nil => rfl
  | cons x es ih =>
    by_cases hx : x.1 = place
    · have hq : (q == x.1) = false := by simp [hx, h]
      rw [List.filter_cons_of_neg (by simp [hx]), ih, List.lookup_cons, hq]
    · rw [List.filter_cons_of_pos (by simp [hx]), List.lookup_cons, List.lookup_cons, ih]

/-- Other places stay as they are. -/
theorem get?_set_of_ne {t : Tree} {place q : Place} {e : Entry} (h : q ≠ place) :
    (t.set place e).get? q = t.get? q := by
  have hq : (q == place) = false := by simp [h]
  simp only [get?, set, List.lookup_cons, hq, lookup_filter_ne h]

theorem walk_append (t : Tree) (place : Place) (xs ys : List Text) :
    t.walk place (xs ++ ys) = (t.walk place xs).bind fun q => t.walk q ys := by
  induction xs generalizing place with
  | nil => rfl
  | cons x xs ih =>
    simp only [List.cons_append, walk]
    cases t.step place x with
    | error e => rfl
    | ok q => exact ih q

end Tree

end CallManual
