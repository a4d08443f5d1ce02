import CallManual.Settings.Basic

/-!
# Changing settings

A patch gives new values to some of the settings. Merging a patch replaces these values whole and
then tidies all settings: blank texts fall back to their defaults, numbers move into their bounds,
and of entries with one name the first stays.
-/
namespace CallManual

/-- An entry of the list of libraries, as far as it is given. -/
structure LibraryEntry where
  name : Option Text := none
  path : Option Text := none
  kind : Option Text := none
  deriving DecidableEq, Repr

structure SettingsPatch where
  command : Option Text := none
  manualSection : Option Text := none
  timeoutMs : Option Nat := none
  joinLimit : Option Nat := none
  concurrency : Option Nat := none
  order : Option (List Text) := none
  libraries : Option (List LibraryEntry) := none
  logLevel : Option LogLevel := none
  deriving DecidableEq, Repr

/-- An entry without name or path is no library. -/
def LibraryEntry.library? (e : LibraryEntry) : Option Library :=
  match e.name, e.path with
  | some name, some path =>
    some { name, path, kind := (e.kind.map LibraryKind.ofSetting).getD .sharedObject }
  | _, _ => none

namespace SettingsPatch

/-- The values of the second patch, and those of the first where the second has none. -/
def followedBy (p q : SettingsPatch) : SettingsPatch where
  command := q.command.or p.command
  manualSection := q.manualSection.or p.manualSection
  timeoutMs := q.timeoutMs.or p.timeoutMs
  joinLimit := q.joinLimit.or p.joinLimit
  concurrency := q.concurrency.or p.concurrency
  order := q.order.or p.order
  libraries := q.libraries.or p.libraries
  logLevel := q.logLevel.or p.logLevel

def apply (p : SettingsPatch) (s : Settings) : Settings where
  manual := {
    command := p.command.getD s.manual.command
    manualSection := p.manualSection.getD s.manual.manualSection
    timeoutMs := p.timeoutMs.getD s.manual.timeoutMs }
  lookup := {
    joinLimit := p.joinLimit.getD s.lookup.joinLimit
    concurrency := p.concurrency.getD s.lookup.concurrency }
  availability := {
    order := p.order.getD s.availability.order
    libraries := match p.libraries with
      | some es => es.filterMap LibraryEntry.library?
      | none => s.availability.libraries }
  logLevel := p.logLevel.getD s.logLevel

end SettingsPatch

def clamp (lo hi n : Nat) : Nat := max lo (min n hi)

def trimOr (default t : Text) : Text :=
  let trimmed := Text.trim t
  if trimmed.isEmpty then default else trimmed

/-- The elements whose key is neither among `seen` nor that of an earlier element. -/
def keepFirst {α : Type} (key : α → Text) (seen : List Text) : List α → List α
  | [] => []
  | x :: xs =>
    if seen.elem (key x) then keepFirst key seen xs
    else x :: keepFirst key (key x :: seen) xs

namespace ManualSettings

def timeoutBounds : Nat × Nat := (100, 60000)

def tidy (s : ManualSettings) : ManualSettings where
  command := trimOr "man" s.command
  manualSection := trimOr "2" s.manualSection
  timeoutMs := clamp timeoutBounds.1 timeoutBounds.2 s.timeoutMs

end ManualSettings

namespace LookupSettings

def joinBounds : Nat × Nat := (1, 8)

def concurrencyBounds : Nat × Nat := (1, 64)

def tidy (s : LookupSettings) : LookupSettings where
  joinLimit := clamp joinBounds.1 joinBounds.2 s.joinLimit
  concurrency :=
    if s.concurrency = 0 then 0
    else clamp concurrencyBounds.1 concurrencyBounds.2 s.concurrency

/-- Lookups in flight at once on a machine with this many processors. -/
def workers (s : LookupSettings) (processors : Nat) : Nat :=
  if s.concurrency = 0 then processors else s.concurrency

end LookupSettings

namespace AvailabilitySettings

def tidyOrder (names : List Text) : List Text :=
  keepFirst id [] ((names.map Text.trim).filter fun n => !n.isEmpty)

def tidyLibraries (ls : List Library) : List Library :=
  let trimmed := ls.map fun l => { l with name := Text.trim l.name, path := Text.trim l.path }
  keepFirst Library.name [] (trimmed.filter fun l => !l.name.isEmpty && !l.path.isEmpty)

def tidy (s : AvailabilitySettings) : AvailabilitySettings where
  order := tidyOrder s.order
  libraries := tidyLibraries s.libraries

end AvailabilitySettings

namespace Settings

def tidy (s : Settings) : Settings where
  manual := s.manual.tidy
  lookup := s.lookup.tidy
  availability := s.availability.tidy
  logLevel := s.logLevel

def merge (s : Settings) (p : SettingsPatch) : Settings := (p.apply s).tidy

/-- Sets the number of lookups in flight, if one is asked for. -/
def withJobs (s : Settings) (jobs : Option Nat) : Settings :=
  match jobs with
  | none => s
  | some n =>
    let bounds := LookupSettings.concurrencyBounds
    { s with lookup := { s.lookup with concurrency := clamp bounds.1 bounds.2 n } }

end Settings

end CallManual
