import CallManual.Settings.Patch
import CallManual.Toml.DateTable
import CallManual.Toml.Document

/-!
# Settings documents

A settings document is TOML with a table for each category. A known key with a value of another
type makes the document invalid. Other keys are passed over, but tables in their values that stand
for dates must be sound. A date or a time is read as a table with a key of its own, so it counts as
one without known keys.
-/
namespace CallManual

namespace SettingsPatch

def textOf : Toml → Option Text
  | .string t => some t
  | _ => none

def naturalOf : Toml → Option Nat
  | .integer n => if 0 ≤ n then some n.toNat else none
  | _ => none

def textsOf : Toml → Option (List Text)
  | .array items => items.mapM textOf
  | _ => none

/-- A level is its word, or a table that has only this key, with an empty table or array. -/
def levelOf : Toml → Option LogLevel
  | .string t => LogLevel.ofWord? t
  | .table [(k, .table [])] => LogLevel.ofWord? k
  | .table [(k, .array [])] => LogLevel.ofWord? k
  | _ => none

/-- The value of a key, `some none` when the key is missing. -/
def key? {α : Type} (k : Text) (read : Toml → Option α) (es : List (Text × Toml)) :
    Option (Option α) :=
  match es.lookup k with
  | none => some none
  | some v => (read v).map some

def item? {α : Type} (read : Toml → Option α) : Option Toml → Option (Option α)
  | none => some none
  | some v => (read v).map some

/-- An entry of the list of libraries: a table, or an array of name, path and kind. -/
def libraryOf : Toml → Option LibraryEntry
  | .table es => do
    some { name := ← key? "name" textOf es, path := ← key? "path" textOf es,
           kind := ← key? "kind" textOf es }
  | .array items => do
    some { name := ← item? textOf items[0]?, path := ← item? textOf items[1]?,
           kind := ← item? textOf items[2]? }
  | .datetime => some {}
  | _ => none

def librariesOf : Toml → Option (List LibraryEntry)
  | .array items => items.mapM libraryOf
  | _ => none

/-- The values of all keys but the known ones have sound dates. -/
def othersSound (known : List Text) (es : List (Text × Toml)) : Bool :=
  es.all fun (k, v) => known.elem k || v.datesSound

def categoryNames : List Text := ["manual", "lookup", "availability", "logging"]

/-- The table of a category with these known keys, empty when it is missing. -/
def category? (k : Text) (known : List Text) (es : List (Text × Toml)) :
    Option (List (Text × Toml)) :=
  match es.lookup k with
  | none => some []
  | some (.table sub) => if othersSound known sub then some sub else none
  | some .datetime => some []
  | some _ => none

def ofEntries? (es : List (Text × Toml)) : Option SettingsPatch := do
  let manual ← category? "manual" ["command", "section", "timeout_ms"] es
  let lookup ← category? "lookup" ["max_joined_lines", "concurrency"] es
  let availability ← category? "availability" ["order", "libraries"] es
  let logging ← category? "logging" ["level"] es
  if othersSound categoryNames es then
    some {
      command := ← key? "command" textOf manual
      manualSection := ← key? "section" textOf manual
      timeoutMs := ← key? "timeout_ms" naturalOf manual
      joinLimit := ← key? "max_joined_lines" naturalOf lookup
      concurrency := ← key? "concurrency" naturalOf lookup
      order := ← key? "order" textsOf availability
      libraries := ← key? "libraries" librariesOf availability
      logLevel := ← key? "level" levelOf logging }
  else none

/-- The patch that a settings document describes. -/
def ofText? (t : Text) : Option SettingsPatch := (Toml.ofText? t).bind ofEntries?

end SettingsPatch

namespace Settings

/-- Merges a settings document. -/
def mergeText? (s : Settings) (t : Text) : Option Settings :=
  (SettingsPatch.ofText? t).map s.merge

end Settings

end CallManual
