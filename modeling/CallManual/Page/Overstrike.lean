import CallManual.Text.Basic

/-!
# Overstruck text

Formatters write bold and underlined characters as a character, a backspace and the character
again. One pass from left to right removes each character together with the backspace after it; a
line feed is never removed this way.
-/
namespace CallManual.Page

def backspace : Char := '\x08'

def removeOverstrike : Text → Text
  | [] => []
  | [c] => [c]
  | c :: d :: t =>
    if d = backspace && c != '\n' then removeOverstrike t else c :: removeOverstrike (d :: t)

end CallManual.Page
