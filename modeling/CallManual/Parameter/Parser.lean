import CallManual.Parameter.Basic

/-!
# Reading parameters

The last word of an object parameter is its declarator; the words before it are qualifiers, the
base type and at most one `*const`, in this order. A text that ends in a closing parenthesis is a
function pointer and splits where its declarator ` (*` begins.
-/
namespace CallManual

inductive ParameterError
  | missingName (parameter : Text)
  | unexpectedWord (word parameter : Text)
  | missingDeclarator (parameter : Text)
  deriving DecidableEq, Repr

def ParameterError.message : ParameterError → Text
  | missingName p => "parameter `" ++ p ++ "` has no separable type and name"
  | unexpectedWord w p => "unexpected token `" ++ w ++ "` in parameter `" ++ p ++ "`"
  | missingDeclarator p => "function pointer parameter `" ++ p ++ "` has no `(*` declarator"

namespace ObjectParameter

/-- What the words in front of a name say. -/
structure TypePart where
  qualifiers : Qualifiers := {}
  baseType : Text
  constPointer : Bool := false
  deriving DecidableEq, Repr

def constPointerMark : Text := ['*', 'c', 'o', 'n', 's', 't']

/-- Reads the words in front of a name, with the qualifiers `s` seen so far. A last word is the base
type whatever it is; an earlier word that is no qualifier has only `*const` after it. The error is
the first word that fits neither rule. -/
def TypePart.ofWords (s : Qualifiers) : List Text → Except Text TypePart
  | [] => .ok { qualifiers := s, baseType := [] }
  | [w] => .ok { qualifiers := s, baseType := w }
  | w :: ws =>
    match Qualifier.ofWord? w with
    | some q => TypePart.ofWords (s.insert q) ws
    | none =>
      if ws = [constPointerMark] then .ok { qualifiers := s, baseType := w, constPointer := true }
      else .error w

/-- A declarator: the star in front of the name, the name, the brackets behind it. -/
def splitDeclarator (d : Text) : Bool × Text × Bool :=
  let (pointer, rest) := match d with
    | '*' :: r => (true, r)
    | _ => (false, d)
  match Text.dropSuffix? ['[', ']'] rest with
  | some name => (pointer, name, true)
  | none => (pointer, rest, false)

def ofParts (type : TypePart) (d : Text) : ObjectParameter :=
  let (pointer, name, array) := splitDeclarator d
  { baseType := type.baseType, name, qualifiers := type.qualifiers, pointer,
    constPointer := type.constPointer, array }

end ObjectParameter

namespace Parameter

/-- The words of a text that ends in a word: those before the last one, and the last one. -/
def splitName? (t : Text) : Option (List Text × Text) :=
  match Text.cutLast? Text.isBlank t with
  | some (front, last) =>
    let ws := Text.words front
    if ws.isEmpty || last.isEmpty then none else some (ws, last)
  | none => none

def parseObject (t : Text) : Except ParameterError ObjectParameter :=
  match splitName? t with
  | none => .error (.missingName t)
  | some (ws, last) =>
    match ObjectParameter.TypePart.ofWords {} ws with
    | .ok type => .ok (.ofParts type last)
    | .error w => .error (.unexpectedWord w t)

def callbackMark : Text := [' ', '(', '*']

def parseCallback (t : Text) : Except ParameterError Parameter :=
  match Text.cutAt? callbackMark t with
  | none => .error (.missingDeclarator t)
  | some (front, rest) =>
    let returnType := Text.trim front
    if returnType.isEmpty then .error (.missingDeclarator t)
    else .ok (.callback returnType (Text.trim rest))

/-- Reads one parameter. The text is taken as it stands, with whatever white space it has. -/
def parse (t : Text) : Except ParameterError Parameter :=
  if t = ellipsis then .ok .variadic
  else if t.getLast? = some ')' then parseCallback t
  else (parseObject t).map .object

end Parameter

end CallManual
