import CallManual.Text.Basic

/-!
# Parameters of a call

A parameter is the variadic marker, a function pointer whose declarator is kept as text, or an
object with a base type and a name. Which of these it is decides which flags it can carry, so a
function pointer is never an array and the variadic marker never has a type.
-/
namespace CallManual

inductive Qualifier
  | const
  | unsigned
  | struct
  | union
  | enum
  deriving DecidableEq, Repr

namespace Qualifier

def word : Qualifier → Text
  | const => ['c', 'o', 'n', 's', 't']
  | unsigned => ['u', 'n', 's', 'i', 'g', 'n', 'e', 'd']
  | struct => ['s', 't', 'r', 'u', 'c', 't']
  | union => ['u', 'n', 'i', 'o', 'n']
  | enum => ['e', 'n', 'u', 'm']

/-- All qualifiers in the order in which a declaration writes them. -/
def written : List Qualifier := [const, struct, union, enum, unsigned]

def ofWord? (w : Text) : Option Qualifier := written.find? fun q => q.word = w

end Qualifier

/-- The set of qualifiers in front of a base type. -/
structure Qualifiers where
  const : Bool := false
  unsigned : Bool := false
  struct : Bool := false
  union : Bool := false
  enum : Bool := false
  deriving DecidableEq, Repr

namespace Qualifiers

def has (s : Qualifiers) : Qualifier → Bool
  | .const => s.const
  | .unsigned => s.unsigned
  | .struct => s.struct
  | .union => s.union
  | .enum => s.enum

def insert (s : Qualifiers) : Qualifier → Qualifiers
  | .const => { s with const := true }
  | .unsigned => { s with unsigned := true }
  | .struct => { s with struct := true }
  | .union => { s with union := true }
  | .enum => { s with enum := true }

def isEmpty (s : Qualifiers) : Bool := s = {}

/-- The members in written order. -/
def toList (s : Qualifiers) : List Qualifier := Qualifier.written.filter s.has

end Qualifiers

/-- An ordinary parameter. `constPointer` says that the pointer itself is constant, as in
`char *const argv[]`; its star belongs to the type, the star of `pointer` to the name. -/
structure ObjectParameter where
  baseType : Text
  name : Text
  qualifiers : Qualifiers := {}
  pointer : Bool := false
  constPointer : Bool := false
  array : Bool := false
  deriving DecidableEq, Repr

inductive Parameter
  | variadic
  | callback (returnType declarator : Text)
  | object (o : ObjectParameter)
  deriving DecidableEq, Repr

namespace ObjectParameter

/-- The words in front of the name. -/
def typeWords (o : ObjectParameter) : List Text :=
  o.qualifiers.toList.map Qualifier.word ++ o.baseType ::
    if o.constPointer then [['*', 'c', 'o', 'n', 's', 't']] else []

/-- The name with the marks attached to it. -/
def declarator (o : ObjectParameter) : Text :=
  (if o.pointer then ['*'] else []) ++ o.name ++ if o.array then ['[', ']'] else []

def render (o : ObjectParameter) : Text := Text.unwords (o.typeWords ++ [o.declarator])

end ObjectParameter

namespace Parameter

def ellipsis : Text := ['.', '.', '.']

def render : Parameter → Text
  | variadic => ellipsis
  | callback returnType declarator => returnType ++ ' ' :: declarator
  | object o => o.render

def isVariadic : Parameter → Bool
  | variadic => true
  | _ => false

def isCallback : Parameter → Bool
  | callback .. => true
  | _ => false

/-- The base type, or the return type of a function pointer; empty for the variadic marker. -/
def baseType : Parameter → Text
  | variadic => []
  | callback returnType _ => returnType
  | object o => o.baseType

/-- The name, or the declarator of a function pointer; empty for the variadic marker. -/
def name : Parameter → Text
  | variadic => []
  | callback _ declarator => declarator
  | object o => o.name

def qualifiers : Parameter → Qualifiers
  | object o => o.qualifiers
  | _ => {}

def isPointer : Parameter → Bool
  | object o => o.pointer
  | _ => false

def isConstPointer : Parameter → Bool
  | object o => o.constPointer
  | _ => false

def isArray : Parameter → Bool
  | object o => o.array
  | _ => false

end Parameter

end CallManual
