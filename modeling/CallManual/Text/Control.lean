import CallManual.Text.Utf8

/-!
# Text without control sequences

A stream that is no terminal gets text without control characters, white space apart, and without
the sequences that an escape character starts. White space inside the shorter kinds of sequence
suspends them: it is shown and so is what follows, up to the next control character. There the
sequence goes on, unless a character beyond ASCII has ended it.
-/
namespace CallManual.Text

def escapeChar : Char := '\x1b'

/-- What a place in a text belongs to. -/
inductive Control
  /-- No sequence. -/
  | plain
  /-- Behind an escape character. -/
  | escape
  /-- A short sequence, which ends at its first character from `0` on. -/
  | intermediate
  /-- Numbers in front of the letter of a sequence. -/
  | parameters
  /-- The front of a string for a device, which a letter ends. -/
  | header
  /-- Numbers in a header. -/
  | headerNumbers
  /-- Marks in a header. A number behind them ends it. -/
  | headerMarks
  /-- A string that a bell ends, such as the title of a window. -/
  | title
  /-- Another string. On terminals for eight bits the byte 9C ends it. -/
  | string
  deriving DecidableEq, Repr

namespace Control

/-- What follows a character right behind an escape character. -/
def ofIntroducer (c : Char) : Control :=
  let n := c.toNat
  if n < 0x20 || 0x7F ≤ n then escape
  else if n < 0x30 then intermediate
  else if c = '[' then parameters
  else if c = ']' then title
  else if c = 'P' then header
  else if c = 'X' || c = '^' || c = '_' then string
  else plain

/-- What follows a character that is not shown. -/
def next (k : Control) (c : Char) : Control :=
  let n := c.toNat
  if c = escapeChar then escape
  else if c = '\x18' || c = '\x1a' then plain
  else
    match k with
    | plain => plain
    | escape => ofIntroducer c
    | intermediate => if 0x30 ≤ n && n < 0x7F then plain else intermediate
    | parameters => if 0x40 ≤ n && n < 0x7F then plain else parameters
    | header =>
      if n < 0x20 || 0x7F ≤ n then header
      else if n < 0x30 then headerMarks
      else if n < 0x40 then headerNumbers
      else string
    | headerNumbers =>
      if n < 0x20 || 0x7F ≤ n then headerNumbers
      else if n < 0x30 then headerMarks
      else if n < 0x3C then headerNumbers
      else string
    | headerMarks => if 0x30 ≤ n && n < 0x7F then string else headerMarks
    | title => if c = '\x07' then plain else title
    | string => if (toUtf8 [c]).elem 0x9C then plain else string

def isShort : Control → Bool
  | escape | intermediate | parameters => true
  | _ => false

end Control

/-- White space among the control characters. -/
def isLayout (c : Char) : Bool := c == '\t' || c == '\n' || c == '\x0c' || c == '\r'

/-- No control character of ASCII, or white space. -/
def isShown (c : Char) : Bool := isLayout c || (0x20 ≤ c.toNat && c.toNat != 0x7F)

/-- The characters shown of a text that starts inside `k`, which may be suspended. -/
def shownFrom (k : Control) (suspended : Bool) : Text → Text
  | [] => []
  | c :: t =>
    if isShown c && (k == .plain || suspended || (k.isShort && isLayout c)) then
      c :: shownFrom (if c.toNat < 0x80 then k else .plain) true t
    else shownFrom (k.next c) false t

def withoutControls (t : Text) : Text := shownFrom .plain false t

end CallManual.Text
