import CallManual.Record.Basic

/-!
# Parameters as records

The three forms of a parameter are written flat, as twelve fields. A flat record is accepted only
when it is the record of some parameter.
-/
namespace CallManual

structure FlatParameter where
  isVariadic : Bool
  baseType : Text
  name : Text
  qualifiers : Qualifiers
  isPointer : Bool
  isConstPointer : Bool
  isArray : Bool
  isCallback : Bool
  deriving DecidableEq, Repr

namespace FlatParameter

def ofParameter (p : Parameter) : FlatParameter where
  isVariadic := p.isVariadic
  baseType := p.baseType
  name := p.name
  qualifiers := p.qualifiers
  isPointer := p.isPointer
  isConstPointer := p.isConstPointer
  isArray := p.isArray
  isCallback := p.isCallback

def hasFlags (f : FlatParameter) : Bool :=
  f.isPointer || f.isConstPointer || f.isArray || !f.qualifiers.isEmpty

def toParameter (f : FlatParameter) : Except Refusal Parameter :=
  if f.isVariadic then
    if f.isCallback || f.hasFlags || !f.baseType.isEmpty || !f.name.isEmpty then
      .error .variadicWithFields
    else .ok .variadic
  else if f.isCallback then
    if f.hasFlags then .error .callbackWithFlags else .ok (.callback f.baseType f.name)
  else
    .ok (.object {
      baseType := f.baseType, name := f.name, qualifiers := f.qualifiers, pointer := f.isPointer,
      constPointer := f.isConstPointer, array := f.isArray })

def toJson (f : FlatParameter) : Json := .object [
  ("is_variadic", .bool f.isVariadic),
  ("base_type", .string f.baseType),
  ("name", .string f.name),
  ("is_const", .bool f.qualifiers.const),
  ("is_unsigned", .bool f.qualifiers.unsigned),
  ("is_struct", .bool f.qualifiers.struct),
  ("is_union", .bool f.qualifiers.union),
  ("is_enum", .bool f.qualifiers.enum),
  ("is_pointer", .bool f.isPointer),
  ("is_const_pointer", .bool f.isConstPointer),
  ("is_array", .bool f.isArray),
  ("is_function_pointer", .bool f.isCallback)]

def schema : List Record.Field := [
  Record.field "is_variadic" Record.boolean,
  Record.field "base_type" Record.text,
  Record.field "name" Record.text,
  Record.field "is_const" Record.boolean,
  Record.field "is_unsigned" Record.boolean,
  Record.field "is_struct" Record.boolean,
  Record.field "is_union" Record.boolean,
  Record.field "is_enum" Record.boolean,
  Record.field "is_pointer" Record.boolean,
  Record.field "is_const_pointer" Record.boolean,
  Record.field "is_array" Record.boolean,
  Record.field "is_function_pointer" Record.boolean]

def ofReading : Decoder FlatParameter := fun r => do
  match ← Record.values schema r with
  | [variadic, base, name, const, unsigned, struct, union, enum, pointer, constPointer, array,
      callback] =>
    .ok {
      isVariadic := ← Record.boolean variadic
      baseType := ← Record.text base
      name := ← Record.text name
      qualifiers := {
        const := ← Record.boolean const
        unsigned := ← Record.boolean unsigned
        struct := ← Record.boolean struct
        union := ← Record.boolean union
        enum := ← Record.boolean enum }
      isPointer := ← Record.boolean pointer
      isConstPointer := ← Record.boolean constPointer
      isArray := ← Record.boolean array
      isCallback := ← Record.boolean callback }
  | _ => .error .shape

end FlatParameter

namespace Parameter

def toJson (p : Parameter) : Json := (FlatParameter.ofParameter p).toJson

def ofReading : Decoder Parameter := fun r => do
  let flat ← FlatParameter.ofReading r
  match flat.toParameter with
  | .ok p => .ok p
  | .error cause => .error (.refused cause)

end Parameter

end CallManual
