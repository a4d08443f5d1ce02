import CallManual.Parameter.Basic

/-!
# Declarations of a call

A declaration has a return type, a name and parameters. It is written on one line, without the
semicolon; no parameters are written `void`.
-/
namespace CallManual

structure Declaration where
  returnType : Text
  name : Text
  parameters : List Parameter
  deriving DecidableEq, Repr

namespace Declaration

def noParameters : Text := ['v', 'o', 'i', 'd']

def separator : Text := [',', ' ']

def arity (d : Declaration) : Nat := d.parameters.length

def renderParameters : List Parameter → Text
  | [] => noParameters
  | ps => Text.join separator (ps.map Parameter.render)

def render (d : Declaration) : Text :=
  d.returnType ++ ' ' :: (d.name ++ '(' :: (renderParameters d.parameters ++ [')']))

end Declaration

end CallManual
