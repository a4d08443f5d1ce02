import CallManual.Toml.Basic
import CallManual.Toml.Date

/-!
# Dates written as tables

A table whose first key is the reserved one stands for a date. It is sound when it has no other key
and the text of a date under this one. The reserved key has no meaning behind another.
-/
namespace CallManual.Toml

/-- The key of a date that is written as a table. -/
def dateKey : Text := "$__toml_private_datetime"

def isDateText : Toml → Bool
  | string t => isDate t
  | _ => false

mutual

/-- Every table inside the value that stands for a date is sound. -/
def datesSound : Toml → Bool
  | array items => itemsSound items
  | table entries => tableSound entries
  | _ => true

def tableSound : List (Text × Toml) → Bool
  | [] => true
  | (k, v) :: rest =>
    if k = dateKey then v.isDateText && rest.isEmpty else datesSound v && entriesSound rest

def itemsSound : List Toml → Bool
  | [] => true
  | v :: rest => datesSound v && itemsSound rest

def entriesSound : List (Text × Toml) → Bool
  | [] => true
  | (_, v) :: rest => datesSound v && entriesSound rest

end

end CallManual.Toml
