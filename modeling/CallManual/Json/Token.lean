import CallManual.Json.Basic
import CallManual.Json.Number

/-!
# The tokens of a JSON text

Tokens are cut from left to right; the first place that holds no token ends the list with `bad`. A
string token keeps `none` when one of its escapes names half of a surrogate pair: such a string is
well formed but stands for no text.
-/
namespace CallManual.Json

inductive Token
  | openArray
  | closeArray
  | openObject
  | closeObject
  | comma
  | colon
  | null
  | bool (b : Bool)
  | number (n : Number)
  | string (s : Option Text)
  | bad
  deriving DecidableEq, Repr

def isSpace (c : Char) : Bool := c == ' ' || c == '\t' || c == '\n' || c == '\r'

def hexQuad? (a b c d : Char) : Option Nat :=
  match Text.hexValue? a, Text.hexValue? b, Text.hexValue? c, Text.hexValue? d with
  | some a, some b, some c, some d => some (4096 * a + 256 * b + 16 * c + d)
  | _, _, _, _ => none

/-- A piece of a string: a character, or the number of a four digit escape. -/
inductive CodeUnit
  | char (c : Char)
  | escaped (n : Nat)
  deriving DecidableEq, Repr

/-- The text of a string, unless an escape stands for half of a surrogate pair alone. -/
def CodeUnit.text? : List CodeUnit → Option Text
  | [] => some []
  | .char c :: us => (text? us).map (c :: ·)
  | .escaped n :: us =>
    if n < 0xD800 || 0xE000 ≤ n then (text? us).map (Char.ofNat n :: ·)
    else if 0xDC00 ≤ n then none
    else
      match us with
      | .escaped m :: us =>
        if 0xDC00 ≤ m && m < 0xE000 then
          (text? us).map (Char.ofNat (0x10000 + 0x400 * (n - 0xD800) + (m - 0xDC00)) :: ·)
        else none
      | _ => none

def shortEscape? (c : Char) : Option Char :=
  if c = '"' then some '"'
  else if c = '\\' then some '\\'
  else if c = '/' then some '/'
  else if c = 'b' then some '\x08'
  else if c = 'f' then some '\x0c'
  else if c = 'n' then some '\n'
  else if c = 'r' then some '\r'
  else if c = 't' then some '\t'
  else none

/-- The pieces of a string whose opening quote is read, and what follows the closing quote. -/
def readString? : Text → Option (List CodeUnit × Text)
  | [] => none
  | c :: t =>
    if c = '"' then some ([], t)
    else if c = '\\' then
      match t with
      | [] => none
      | e :: t =>
        if e = 'u' then
          match t with
          | a :: b :: c :: d :: t =>
            match hexQuad? a b c d with
            | some n => (readString? t).map fun (us, r) => (.escaped n :: us, r)
            | none => none
          | _ => none
        else
          match shortEscape? e with
          | some c => (readString? t).map fun (us, r) => (.char c :: us, r)
          | none => none
    else if c.toNat < 0x20 then none
    else (readString? t).map fun (us, r) => (.char c :: us, r)

/-- At least one digit, and the rest. -/
def readDigits? (t : Text) : Option (Text × Text) :=
  let ds := t.takeWhile Text.isDigit
  if ds.isEmpty then none else some (ds, t.dropWhile Text.isDigit)

def readDecimals? : Text → Option (Text × Text)
  | '.' :: t => readDigits? t
  | t => some ([], t)

def readExponent? : Text → Option (Int × Text)
  | c :: t =>
    if c = 'e' || c = 'E' then
      match t with
      | '-' :: t => (readDigits? t).map fun (ds, r) => (-(Text.digitsValue ds : Int), r)
      | '+' :: t => (readDigits? t).map fun (ds, r) => ((Text.digitsValue ds : Int), r)
      | t => (readDigits? t).map fun (ds, r) => ((Text.digitsValue ds : Int), r)
    else some (0, c :: t)
  | [] => some (0, [])

/-- A zero alone, or digits that do not start with zero. -/
def readWhole? : Text → Option (Text × Text)
  | '0' :: t => some (['0'], t)
  | t => readDigits? t

/-- A number without its sign. -/
def readNumber? (t : Text) : Option (Number × Text) := do
  let (whole, t) ← readWhole? t
  let (decimals, t) ← readDecimals? t
  let (exponent, t) ← readExponent? t
  some ({ whole, decimals, exponent }, t)

def readWord? (w : Text) (k : Token) (t : Text) : Option (Token × Text) :=
  (Text.dropPrefix? w t).map fun r => (k, r)

def punctuation? (c : Char) : Option Token :=
  if c = '[' then some .openArray
  else if c = ']' then some .closeArray
  else if c = '{' then some .openObject
  else if c = '}' then some .closeObject
  else if c = ',' then some .comma
  else if c = ':' then some .colon
  else none

/-- A token other than punctuation, given its first character and what follows that. -/
def readLiteral? (c : Char) (t : Text) : Option (Token × Text) :=
  if c = '"' then (readString? t).map fun p => (.string (CodeUnit.text? p.1), p.2)
  else if c = '-' then (readNumber? t).map fun p => (.number p.1, p.2)
  else if Text.isDigit c then (readNumber? (c :: t)).map fun p => (.number p.1, p.2)
  else if c = 'n' then readWord? nullWord.tail .null t
  else if c = 't' then readWord? trueWord.tail (.bool true) t
  else if c = 'f' then readWord? falseWord.tail (.bool false) t
  else none

/-- The token that starts with the character `c`, and what follows it. -/
def readToken? (c : Char) (t : Text) : Option (Token × Text) :=
  match punctuation? c with
  | some k => some (k, t)
  | none => readLiteral? c t

theorem readString?_length {t r : Text} {us : List CodeUnit} (h : readString? t = some (us, r)) :
    r.length < t.length := by
  fun_induction readString? t generalizing us r <;> simp [Option.map_eq_some_iff] at h <;> grind

theorem readDigits?_length {t ds r : Text} (h : readDigits? t = some (ds, r)) :
    r.length < t.length := by
  have hl : (t.takeWhile Text.isDigit).length + (t.dropWhile Text.isDigit).length = t.length := by
    rw [← List.length_append, List.takeWhile_append_dropWhile]
  grind [readDigits?, List.length_eq_zero_iff]

theorem readDecimals?_length {t ds r : Text} (h : readDecimals? t = some (ds, r)) :
    r.length ≤ t.length := by
  unfold readDecimals? at h
  split at h
  · have := readDigits?_length h
    grind
  · grind

theorem readExponent?_length {t r : Text} {e : Int} (h : readExponent? t = some (e, r)) :
    r.length ≤ t.length := by
  unfold readExponent? at h
  split at h
  · split at h
    · split at h <;> simp only [Option.map_eq_some_iff] at h <;> obtain ⟨⟨ds, b⟩, hd, h⟩ := h <;>
        have := readDigits?_length hd <;> grind
    · grind
  · grind

theorem readWhole?_length {t ds r : Text} (h : readWhole? t = some (ds, r)) :
    r.length < t.length := by
  unfold readWhole? at h
  split at h
  · grind
  · exact readDigits?_length h

theorem readNumber?_length {t r : Text} {n : Number} (h : readNumber? t = some (n, r)) :
    r.length < t.length := by
  simp only [readNumber?, Option.bind_eq_bind, Option.bind_eq_some_iff] at h
  obtain ⟨⟨w, a⟩, hw, ⟨ds, b⟩, hd, ⟨e, c⟩, he, h⟩ := h
  have h1 := readWhole?_length hw
  have h2 := readDecimals?_length hd
  have h3 := readExponent?_length he
  grind

theorem readWord?_length {w t r : Text} {k l : Token} (h : readWord? w k t = some (l, r)) :
    r.length ≤ t.length := by
  unfold readWord? Text.dropPrefix? at h
  split at h <;> simp at h
  grind

theorem readLiteral?_length {c : Char} {t r : Text} {k : Token}
    (h : readLiteral? c t = some (k, r)) : r.length ≤ t.length := by
  unfold readLiteral? at h
  repeat' split at h
  any_goals exact readWord?_length h
  · obtain ⟨p, hp, h⟩ := Option.map_eq_some_iff.1 h
    have := readString?_length (r := p.2) hp
    grind
  · obtain ⟨p, hp, h⟩ := Option.map_eq_some_iff.1 h
    have := readNumber?_length (r := p.2) hp
    grind
  · obtain ⟨p, hp, h⟩ := Option.map_eq_some_iff.1 h
    have := readNumber?_length (r := p.2) hp
    grind
  · cases h

theorem readToken?_length {c : Char} {t r : Text} {k : Token} (h : readToken? c t = some (k, r)) :
    r.length ≤ t.length := by
  unfold readToken? at h
  split at h
  · grind
  · exact readLiteral?_length h

/-- All tokens of a text. -/
def tokens (t : Text) : List Token :=
  match _h : t.dropWhile isSpace with
  | [] => []
  | c :: r =>
    match _hr : readToken? c r with
    | none => [.bad]
    | some (k, rest) => k :: tokens rest
termination_by t.length
decreasing_by
  have h1 := readToken?_length _hr
  have h2 := (List.dropWhile_sublist (l := t) isSpace).length_le
  rw [_h, List.length_cons] at h2
  omega

end CallManual.Json
