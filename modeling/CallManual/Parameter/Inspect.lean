import CallManual.Parameter.Basic
import CallManual.Text.Quoted

/-!
# Parameters in full

Every field of a parameter by name, for people who want to see what was read.
-/
namespace CallManual

namespace Parameter

def flagText (b : Bool) : Text := if b then "true" else "false"

def qualifiersText (q : Qualifiers) : Text :=
  Text.fields "Qualifiers" [("is_const", flagText q.const), ("is_unsigned", flagText q.unsigned),
    ("is_struct", flagText q.struct), ("is_union", flagText q.union), ("is_enum", flagText q.enum)]

def inspect : Parameter → Text
  | variadic => "Variadic"
  | callback returnType declarator =>
    Text.fields "FunctionPointer" [("return_type", Text.quoted returnType),
      ("declarator", Text.quoted declarator)]
  | object o =>
    "Value(" ++ Text.fields "ValueParameter" [("base_type", Text.quoted o.baseType),
      ("name", Text.quoted o.name), ("qualifiers", qualifiersText o.qualifiers),
      ("is_pointer", flagText o.pointer), ("is_const_pointer", flagText o.constPointer),
      ("is_array", flagText o.array)] ++ ")"

end Parameter

end CallManual
