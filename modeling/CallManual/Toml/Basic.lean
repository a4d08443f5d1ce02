import CallManual.Text.Basic

/-!
# TOML values

Dates, times and floating point numbers are told apart from other values but not kept.
-/
namespace CallManual

inductive Toml
  | string (t : Text)
  | integer (n : Int)
  | float
  | boolean (b : Bool)
  | datetime
  | array (items : List Toml)
  | table (entries : List (Text × Toml))

end CallManual
