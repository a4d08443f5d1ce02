import CallManual.Text.Basic

/-!
# Digits and identifiers

Letters and digits are ASCII here, as in the language whose identifiers these are: a letter or
underscore, then letters, digits and underscores.
-/
namespace CallManual.Text

def isLetter (c : Char) : Bool := ('a' ≤ c && c ≤ 'z') || ('A' ≤ c && c ≤ 'Z')

def isDigit (c : Char) : Bool := '0' ≤ c && c ≤ '9'

def isHexDigit (c : Char) : Bool :=
  isDigit c || ('a' ≤ c && c ≤ 'f') || ('A' ≤ c && c ≤ 'F')

def hexValue? (c : Char) : Option Nat :=
  if '0' ≤ c && c ≤ '9' then some (c.toNat - 48)
  else if 'a' ≤ c && c ≤ 'f' then some (c.toNat - 87)
  else if 'A' ≤ c && c ≤ 'F' then some (c.toNat - 55)
  else none

/-- The number that digits stand for in a base. Characters that are no digits count as zero. -/
def digitsValue (ds : Text) (base : Nat := 10) : Nat :=
  ds.foldl (fun n c => base * n + (hexValue? c).getD 0) 0

def startsIdentifier (c : Char) : Bool := c == '_' || isLetter c

def inIdentifier (c : Char) : Bool := startsIdentifier c || isDigit c

def isIdentifier : Text → Bool
  | [] => false
  | c :: t => startsIdentifier c && t.all inIdentifier

end CallManual.Text
