import CallManual.Host.Basic
import CallManual.Settings.Basic
import CallManual.Text.Quoted

/-!
# The log

A line of the log goes to the console when its level is shown there, and to the log file when there
is one and the level is `debug` or above. Characters with which a message could steer a terminal are
written as numbers; line ends and tabs stay.
-/
namespace CallManual

abbrev Logger (m : Type → Type) := LogLevel → Text → m Unit

namespace Logger

variable {m : Type → Type} [Monad m]

/-- Keeps nothing. -/
def silent : Logger m := fun _ _ => pure ()

/-- Bell, backspace, form feed, escape and delete. -/
def steering : Text := ['\x07', '\x08', '\x0c', '\x1b', '\x7f']

def messageChar (c : Char) : Text :=
  let n := c.toNat
  if steering.elem c then (if n < 0x10 then "\\x0" else "\\x" : Text) ++ Text.hexText n
  else if 0x80 ≤ n && n ≤ 0x9F then "\\u\x7b" ++ Text.hexText n ++ "\x7d"
  else [c]

def logLine (level : LogLevel) (message : Text) : Text :=
  level.tag ++ ' ' :: (message.flatMap messageChar ++ ['\n'])

/-- The log of a run that shows `threshold` on the console. -/
def ofHost (host : Host m) (threshold : LogLevel) (file : Option Path) : Logger m :=
  fun level message => do
    let line := logLine level message
    if threshold.isShownAt level then host.emit .console line
    if let some p := file then
      if LogLevel.debug.isShownAt level then host.emit (.file p) line

/-- The name of the log file when its path names none. -/
def defaultFileName : Text := "syscall-synopsis.log"

/-- The file that a path for the log stands for. -/
def filePath (p : Path) : Path :=
  Path.join ((Path.parent? p).getD ['.']) ((Path.fileName? p).getD defaultFileName)

end Logger

end CallManual
