import CallManual.Text.Basic

/-!
# JSON values and their text

Members keep the order in which they are written. A layout says what white space stands between
the tokens of a text: none, or a line per element with two spaces for each level.
-/
namespace CallManual

inductive Json
  | null
  | bool (b : Bool)
  | string (s : Text)
  | array (items : List Json)
  | object (members : List (Text × Json))

namespace Json

inductive Layout
  | compact
  | pretty
  deriving DecidableEq, Repr

namespace Layout

/-- The line break in front of an element or a closing bracket at this depth. -/
def gap : Layout → (depth : Nat) → Text
  | compact, _ => []
  | pretty, depth => '\n' :: List.replicate (2 * depth) ' '

def colon : Layout → Text
  | compact => [':']
  | pretty => [':', ' ']

end Layout

def hexDigit (n : Nat) : Char := Char.ofNat (if n < 10 then n + 48 else n + 87)

/-- How a character is written inside a string. -/
def escape (c : Char) : Text :=
  if c = '"' then ['\\', '"']
  else if c = '\\' then ['\\', '\\']
  else if c = '\x08' then ['\\', 'b']
  else if c = '\t' then ['\\', 't']
  else if c = '\n' then ['\\', 'n']
  else if c = '\x0c' then ['\\', 'f']
  else if c = '\r' then ['\\', 'r']
  else if c.toNat < 0x20 then
    ['\\', 'u', '0', '0', hexDigit (c.toNat / 16), hexDigit (c.toNat % 16)]
  else [c]

def quote (s : Text) : Text := '"' :: (s.flatMap escape ++ ['"'])

def nullWord : Text := ['n', 'u', 'l', 'l']
def trueWord : Text := ['t', 'r', 'u', 'e']
def falseWord : Text := ['f', 'a', 'l', 's', 'e']

mutual

/-- The text of a value whose closing bracket stands at depth `d`. -/
def write (l : Layout) (d : Nat) : Json → Text
  | null => nullWord
  | bool b => if b then trueWord else falseWord
  | string s => quote s
  | array items =>
    '[' :: (writeItems l (d + 1) items ++ if items.isEmpty then [']'] else l.gap d ++ [']'])
  | object members =>
    '{' :: (writeMembers l (d + 1) members ++ if members.isEmpty then ['}'] else l.gap d ++ ['}'])

def writeItems (l : Layout) (d : Nat) : List Json → Text
  | [] => []
  | x :: xs =>
    l.gap d ++ write l d x ++ if xs.isEmpty then [] else ',' :: writeItems l d xs

def writeMembers (l : Layout) (d : Nat) : List (Text × Json) → Text
  | [] => []
  | (k, v) :: ms =>
    l.gap d ++ quote k ++ l.colon ++ write l d v ++
      if ms.isEmpty then [] else ',' :: writeMembers l d ms

end

def compact (j : Json) : Text := write .compact 0 j

def pretty (j : Json) : Text := write .pretty 0 j

end Json

end CallManual
