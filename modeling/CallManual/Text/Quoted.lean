import CallManual.Text.Printable

/-!
# Quoted text

For people to read, text stands between double quotes. Quotes and backslashes get a backslash, the
usual control characters a letter, and whatever does not show by itself its code point in braces.
-/
namespace CallManual.Text

def hexText (n : Nat) : Text := Nat.toDigits 16 n

def quoteChar (c : Char) : Text :=
  if c = '"' then ['\\', '"']
  else if c = '\\' then ['\\', '\\']
  else if c = '\t' then ['\\', 't']
  else if c = '\n' then ['\\', 'n']
  else if c = '\r' then ['\\', 'r']
  else if c = '\x00' then ['\\', '0']
  else if shows c then [c]
  else "\\u\x7b" ++ hexText c.toNat ++ "\x7d"

def quoted (t : Text) : Text := '"' :: (t.flatMap quoteChar ++ ['"'])

/-- Names and values between braces, behind the name of what they belong to. -/
def fields (name : Text) (members : List (Text × Text)) : Text :=
  name ++ " \x7b " ++ join ", " (members.map fun (k, v) => k ++ ": " ++ v) ++ " \x7d"

end CallManual.Text
