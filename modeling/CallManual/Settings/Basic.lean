import CallManual.Text.Quoted

/-!
# Settings

Settings fall into four categories: the manual command, lookups, environments, and the log. Bounds
hold for what is configured; a concurrency of zero stands for one lookup per processor.
-/
namespace CallManual

structure ManualSettings where
  command : Text := "man"
  manualSection : Text := "2"
  timeoutMs : Nat := 10000
  deriving DecidableEq, Repr

structure LookupSettings where
  joinLimit : Nat := 3
  concurrency : Nat := 0
  deriving DecidableEq, Repr

/-- How the symbols of an environment are obtained: from a shared object, or from a list. -/
inductive LibraryKind
  | sharedObject
  | symbolList
  deriving DecidableEq, Repr

structure Library where
  name : Text
  path : Text
  kind : LibraryKind := .sharedObject
  deriving DecidableEq, Repr

structure AvailabilitySettings where
  order : List Text := []
  libraries : List Library := []
  deriving DecidableEq, Repr

inductive LogLevel
  | error
  | warn
  | info
  | debug
  | trace
  deriving DecidableEq, Repr

structure Settings where
  manual : ManualSettings := {}
  lookup : LookupSettings := {}
  availability : AvailabilitySettings := {}
  logLevel : LogLevel := .info
  deriving DecidableEq, Repr

namespace LibraryKind

def listWords : List Text := ["symbols", "symbol-list", "list"]

def toLowerAscii (c : Char) : Char := if 'A' ≤ c && c ≤ 'Z' then Char.ofNat (c.toNat + 32) else c

/-- A word for lists asks for a list, and anything else for a shared object. -/
def ofSetting (t : Text) : LibraryKind :=
  if listWords.elem ((Text.trim t).map toLowerAscii) then .symbolList else .sharedObject

def label : LibraryKind → Text
  | sharedObject => "SharedObject"
  | symbolList => "SymbolList"

end LibraryKind

namespace LogLevel

def all : List LogLevel := [error, warn, info, debug, trace]

def word : LogLevel → Text
  | error => "error"
  | warn => "warn"
  | info => "info"
  | debug => "debug"
  | trace => "trace"

def label : LogLevel → Text
  | error => "Error"
  | warn => "Warn"
  | info => "Info"
  | debug => "Debug"
  | trace => "Trace"

/-- The word in front of a line of the log. -/
def tag : LogLevel → Text
  | error => "ERROR"
  | warn => "WARN"
  | info => "INFO"
  | debug => "DEBUG"
  | trace => "TRACE"

def ofWord? (w : Text) : Option LogLevel := all.find? fun l => l.word = w

def rank : LogLevel → Nat
  | error => 0
  | warn => 1
  | info => 2
  | debug => 3
  | trace => 4

/-- A log that shows `threshold` shows this level. -/
def isShownAt (threshold level : LogLevel) : Bool := level.rank ≤ threshold.rank

def directive (l : LogLevel) : Text := "syscall_synopsis=" ++ l.word

end LogLevel

/-- A time in the largest of the units second and millisecond that it fills, without zeros at the
end of its decimals. -/
def durationText (ms : Nat) : Text :=
  if ms = 0 then "0ns"
  else if ms < 1000 then Text.decimal ms ++ "ms"
  else
    let decimals := (Text.decimal (1000 + ms % 1000)).drop 1
    let kept := (decimals.reverse.dropWhile (· == '0')).reverse
    Text.decimal (ms / 1000) ++ (if kept.isEmpty then [] else '.' :: kept) ++ "s"

namespace Settings

def listText (ts : List Text) : Text := '[' :: (Text.join ", " ts ++ "]")

def libraryText (l : Library) : Text :=
  Text.fields "LibrarySpec" [("name", Text.quoted l.name), ("path", Text.quoted l.path),
    ("kind", l.kind.label)]

/-- All settings on one line, for the log. -/
def describe (s : Settings) : Text :=
  Text.fields "Settings" [
    ("manual", Text.fields "ManualSettings" [("command", Text.quoted s.manual.command),
      ("section", Text.quoted s.manual.manualSection),
      ("timeout_ms", Text.decimal s.manual.timeoutMs)]),
    ("lookup", Text.fields "LookupSettings" [
      ("max_joined_lines", Text.decimal s.lookup.joinLimit),
      ("concurrency", Text.decimal s.lookup.concurrency)]),
    ("availability", Text.fields "AvailabilitySettings" [
      ("order", listText (s.availability.order.map Text.quoted)),
      ("libraries", listText (s.availability.libraries.map libraryText))]),
    ("logging", Text.fields "LoggingSettings" [("level", s.logLevel.label)])]

end Settings

end CallManual
