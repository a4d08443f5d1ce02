import CallManual.Text.Identifier

/-!
# Symbols of an environment

An environment is a name with a set of function symbols. Symbols come from a list with one name a
line, or from a listing with address, type letter and name on each line, where a version may follow
the name after `@`.
-/
namespace CallManual

/-- An environment whose symbols are written without repeats. -/
structure Environment where
  name : Text
  symbols : List Text
  deriving DecidableEq, Repr

namespace Environment

def ofList (name : Text) (symbols : List Text) : Environment := ⟨name, symbols.eraseDups⟩

def contains (e : Environment) (symbol : Text) : Bool := e.symbols.elem symbol

def size (e : Environment) : Nat := e.symbols.length

end Environment

namespace Symbols

/-- The type letters of defined functions. -/
def isFunctionType (c : Char) : Bool :=
  c == 'T' || c == 't' || c == 'W' || c == 'w' || c == 'i'

/-- An identifier at the front of a text that ends there or goes on with a version. -/
def versionedName? (t : Text) : Option Text :=
  let name := t.takeWhile Text.inIdentifier
  match t.dropWhile Text.inIdentifier with
  | [] => if Text.isIdentifier name then some name else none
  | c :: _ => if c = '@' && Text.isIdentifier name then some name else none

/-- The function symbol that a line of a listing defines. Without an address the line starts with
white space. -/
def ofListingLine? (line : Text) : Option Text :=
  let address := (Text.trimStart line).takeWhile Text.isHexDigit
  let afterAddress := (Text.trimStart line).dropWhile Text.isHexDigit
  let separated := match if address.isEmpty then line else afterAddress with
    | c :: _ => Text.isBlank c
    | [] => false
  if separated then
    match Text.trimStart afterAddress with
    | kind :: c :: rest =>
      if isFunctionType kind && Text.isBlank c then versionedName? (Text.trimStart rest) else none
    | _ => none
  else none

/-- The function symbols of a listing, in line order and with repeats. -/
def ofListing (listing : Text) : List Text := (Text.lines listing).filterMap ofListingLine?

end Symbols

end CallManual
