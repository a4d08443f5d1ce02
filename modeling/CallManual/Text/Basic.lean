/-!
# Text

Text is a list of characters. White space is the Unicode property `White_Space`; lines end at a
line feed, with one carriage return directly before it left out. The cuts below return both sides
of what they found, so that the two sides always put together again.
-/
namespace CallManual

abbrev Text := List Char

instance : Coe String Text := ⟨String.toList⟩

namespace Text

/-- Goes through the characters of the text, not through all characters. -/
instance (priority := high) decidableForallMem (p : Char → Prop) [DecidablePred p] (t : Text) :
    Decidable (∀ c ∈ t, p c) := List.decidableBAll p t

/-- The Unicode property `White_Space`. -/
def isBlank (c : Char) : Bool :=
  let n := c.toNat
  (0x09 ≤ n && n ≤ 0x0D) || n == 0x20 || n == 0x85 || n == 0xA0 || n == 0x1680 ||
    (0x2000 ≤ n && n ≤ 0x200A) || n == 0x2028 || n == 0x2029 || n == 0x202F || n == 0x205F ||
    n == 0x3000

def trimStart (t : Text) : Text := t.dropWhile isBlank

def trimEnd (t : Text) : Text := (t.reverse.dropWhile isBlank).reverse

def trim (t : Text) : Text := trimEnd (trimStart t)

/-- The maximal stretches without white space. -/
def words (t : Text) : List Text := (t.splitOnP isBlank).filter fun w => !w.isEmpty

def unwords (ws : List Text) : Text := [' '].intercalate ws

/-- A line without the carriage return of its line end. -/
def chopReturn (t : Text) : Text := if t.getLast? = some '\r' then t.dropLast else t

/-- The lines of a text. Text after the last line feed counts as a line when there is any. -/
def lines (t : Text) : List Text :=
  let pieces := t.splitOn '\n'
  pieces.dropLast.map chopReturn ++ (pieces.drop (pieces.length - 1)).filter fun l => !l.isEmpty

/-- The names in a list with one name on each line. Blank lines and lines that start with `#` are
comments. -/
def nameList (t : Text) : List Text :=
  ((lines t).map trim).filter fun l => !l.isEmpty && l.head? != some '#'

/-- Both sides of the first character with `p`, which belongs to neither. -/
def cutFirst? (p : Char → Bool) : Text → Option (Text × Text)
  | [] => none
  | c :: t => if p c then some ([], t) else (cutFirst? p t).map fun (a, b) => (c :: a, b)

/-- Both sides of the last character with `p`, which belongs to neither. -/
def cutLast? (p : Char → Bool) : Text → Option (Text × Text)
  | [] => none
  | c :: t =>
    match cutLast? p t with
    | some (a, b) => some (c :: a, b)
    | none => if p c then some ([], t) else none

/-- What stands before the first occurrence of `w`, and the rest from that occurrence on. -/
def cutAt? (w : Text) : Text → Option (Text × Text)
  | [] => if w.isEmpty then some ([], []) else none
  | c :: t =>
    if w.isPrefixOf (c :: t) then some ([], c :: t)
    else (cutAt? w t).map fun (a, b) => (c :: a, b)

/-- What stands after the last occurrence of `w`. -/
def afterLast? (w : Text) : Text → Option Text
  | [] => if w.isEmpty then some [] else none
  | c :: t =>
    match afterLast? w t with
    | some b => some b
    | none => if w.isPrefixOf (c :: t) then some ((c :: t).drop w.length) else none

def contains (w t : Text) : Bool := (cutAt? w t).isSome

/-- The text without `w` at its front. -/
def dropPrefix? (w t : Text) : Option Text :=
  if w.isPrefixOf t then some (t.drop w.length) else none

/-- The text without `w` at its end. -/
def dropSuffix? (w t : Text) : Option Text :=
  if w.isSuffixOf t then some (t.take (t.length - w.length)) else none

def decimal (n : Nat) : Text := Nat.toDigits 10 n

def join (separator : Text) (ts : List Text) : Text := separator.intercalate ts

end Text

end CallManual
