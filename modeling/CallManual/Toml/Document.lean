import CallManual.Toml.Scalar
import CallManual.Toml.Table

/-!
# Reading TOML documents

A document is a sequence of lines with a header, a key and its value, or nothing. Values may be
nested to a fixed depth, which is what their reading recurses on.
-/
namespace CallManual.Toml

/-- How deep arrays and inline tables may be nested, and how many parts a key may have. -/
def nestingLimit : Nat := 79

/-- Passes over white space, and a comment, up to and with the end of the line. -/
def endLine? : (comment : Bool) → Text → Option Text
  | _, [] => some []
  | _, '\n' :: t => some t
  | _, '\r' :: '\n' :: t => some t
  | true, c :: t => if isPrintable c then endLine? true t else none
  | false, '#' :: t => endLine? true t
  | false, c :: t => if isSpace c then endLine? false t else none

/-- Passes over white space, line ends and comments. A comment ends with its line. -/
def skipLines? : (comment : Bool) → Text → Option Text
  | true, [] => none
  | false, [] => some []
  | _, '\n' :: t => skipLines? false t
  | _, '\r' :: '\n' :: t => skipLines? false t
  | true, c :: t => if isPrintable c then skipLines? true t else none
  | false, '#' :: t => skipLines? true t
  | false, c :: t => if isSpace c then skipLines? false t else some (c :: t)

def skipSpace (t : Text) : Text := t.dropWhile isSpace

def isBareKey (c : Char) : Bool := Text.isLetter c || Text.isDigit c || c == '_' || c == '-'

def simpleKey? : Text → Option (Text × Text)
  | '"' :: t => basicString? t
  | '\'' :: t => literalString? t
  | t =>
    let k := t.takeWhile isBareKey
    if k.isEmpty then none else some (k, t.dropWhile isBareKey)

/-- The parts of a key with the white space around them. -/
def keyParts? : (fuel : Nat) → Text → Option (List Text × Text)
  | 0, _ => none
  | fuel + 1, t => do
    let (k, t) ← simpleKey? (skipSpace t)
    match skipSpace t with
    | '.' :: t =>
      let (ks, t) ← keyParts? fuel t
      some (k :: ks, t)
    | t => some ([k], t)

/-- A key: the path to its table, its last part, and what follows it. -/
def key? (t : Text) : Option (List Text × Text × Text) := do
  let (ks, t) ← keyParts? (t.length + 1) t
  if ks.length ≤ nestingLimit then
    some (ks.dropLast, ← ks.getLast?, t)
  else none

/-- The elements of an array, after its opening bracket. -/
def items? (value? : Text → Option (Toml × Text)) : (fuel : Nat) → Text → Option (List Toml × Text)
  | 0, _ => none
  | fuel + 1, t => do
    match ← skipLines? false t with
    | ']' :: t => some ([], t)
    | t =>
      let (v, t) ← value? t
      match ← skipLines? false t with
      | ']' :: t => some ([v], t)
      | ',' :: t =>
        let (vs, t) ← items? value? fuel t
        some (v :: vs, t)
      | _ => none

/-- The keys and values of an inline table, which has at least one, up to its closing brace. -/
def pairs? (value? : Text → Option (Toml × Text)) :
    (fuel : Nat) → Entries → Text → Option (Entries × Text)
  | 0, _, _ => none
  | fuel + 1, es, t => do
    let (path, k, t) ← key? t
    match t with
    | '=' :: t =>
      let (v, t) ← value? (skipSpace t)
      let es ← es.set path k v
      match skipSpace t with
      | '}' :: t => some (es, t)
      | ',' :: t => pairs? value? fuel es t
      | _ => none
    | _ => none

def value? : (depth : Nat) → Text → Option (Toml × Text)
  | depth, '[' :: t =>
    match depth with
    | 0 => none
    | depth + 1 => (items? (value? depth) (t.length + 1) t).map fun (vs, t) => (.array vs, t)
  | depth, '{' :: t =>
    match depth with
    | 0 => none
    | depth + 1 =>
      match skipSpace t with
      | '}' :: t => some (.table [], t)
      | t => (pairs? (value? depth) (t.length + 1) [] t).map fun (es, t) =>
          ((Node.table false false es).toToml, t)
  | _, '"' :: t => (string? ('"' :: t)).map fun (s, t) => (.string s, t)
  | _, '\'' :: t => (string? ('\'' :: t)).map fun (s, t) => (.string s, t)
  | _, t => word? t

def statement? (d : Draft) : Text → Option (Draft × Text)
  | '[' :: '[' :: t => do
    let (path, k, t) ← key? t
    match t with
    | ']' :: ']' :: t => some (← d.openElement path k, ← endLine? false t)
    | _ => none
  | '[' :: t => do
    let (path, k, t) ← key? t
    match t with
    | ']' :: t => some (← d.openTable path k, ← endLine? false t)
    | _ => none
  | t => do
    let (path, k, t) ← key? t
    match t with
    | '=' :: t =>
      let (v, t) ← value? nestingLimit (skipSpace t)
      some (← d.set path k v, ← endLine? false t)
    | _ => none

def statements? : (fuel : Nat) → Draft → Text → Option Draft
  | 0, _, _ => none
  | fuel + 1, d, t =>
    match skipSpace t with
    | [] => some d
    | '\n' :: t => statements? fuel d t
    | '\r' :: '\n' :: t => statements? fuel d t
    | '#' :: t => do statements? fuel d (← endLine? true t)
    | t => do
      let (d, t) ← statement? d t
      statements? fuel d t

/-- The entries of a document. A byte order mark at its front is left out. -/
def ofText? (t : Text) : Option (List (Text × Toml)) := do
  let t := match t with
    | '\ufeff' :: t => t
    | t => t
  let d ← statements? (t.length + 1) {} t
  some (Node.entriesToToml (← d.finish))

end CallManual.Toml
