import CallManual.Text.Numeral
import CallManual.Toml.Basic
import CallManual.Toml.Date

/-!
# Strings, numbers and words of TOML

Strings are read up to their closing quotes. All other scalars are words, which are cut first and
then matched as a whole.
-/
namespace CallManual.Toml

def isSpace (c : Char) : Bool := c == ' ' || c == '\t'

/-- Characters of comments. -/
def isPrintable (c : Char) : Bool :=
  c == '\t' || (0x20 ≤ c.toNat && c.toNat ≤ 0x7E) || 0x80 ≤ c.toNat

def shortEscape? (c : Char) : Option Char :=
  if c = 'b' then some '\x08'
  else if c = 't' then some '\t'
  else if c = 'n' then some '\n'
  else if c = 'f' then some '\x0c'
  else if c = 'r' then some '\r'
  else if c = '"' then some '"'
  else if c = '\\' then some '\\'
  else none

/-- The scalar value that hexadecimal digits stand for. -/
def scalar? (digits : Text) : Option Char :=
  if digits.all Text.isHexDigit then
    let n := Text.digitsValue digits 16
    if n < 0xD800 || (0xE000 ≤ n && n < 0x110000) then some (Char.ofNat n) else none
  else none

def consed (c : Char) (p : Text × Text) : Text × Text := (c :: p.1, p.2)

/-- A string on one line, after its opening quote, and what follows it. -/
def basicString? : Text → Option (Text × Text)
  | [] => none
  | '"' :: t => some ([], t)
  | '\\' :: 'u' :: a :: b :: c :: d :: t =>
    match scalar? [a, b, c, d] with
    | some x => (basicString? t).map (consed x)
    | none => none
  | '\\' :: 'U' :: a :: b :: c :: d :: e :: f :: g :: h :: t =>
    match scalar? [a, b, c, d, e, f, g, h] with
    | some x => (basicString? t).map (consed x)
    | none => none
  | '\\' :: e :: t =>
    match shortEscape? e with
    | some x => (basicString? t).map (consed x)
    | none => none
  | c :: t => if isPrintable c then (basicString? t).map (consed c) else none

/-- Where a backslash at the end of a line takes out the white space after it. -/
inductive Fold
  | text
  | toLineEnd
  | beyond
  deriving DecidableEq, Repr

/-- A string over several lines, after its opening quotes and the line end there. -/
def basicLines? : Fold → Text → Option (Text × Text)
  | _, [] => none
  | .toLineEnd, '\r' :: '\n' :: t => basicLines? .beyond t
  | .toLineEnd, '\n' :: t => basicLines? .beyond t
  | .toLineEnd, c :: t => if isSpace c then basicLines? .toLineEnd t else none
  | .beyond, ' ' :: t => basicLines? .beyond t
  | .beyond, '\t' :: t => basicLines? .beyond t
  | .beyond, '\n' :: t => basicLines? .beyond t
  | .beyond, '\r' :: '\n' :: t => basicLines? .beyond t
  | _, '"' :: '"' :: '"' :: '"' :: '"' :: t => some (['"', '"'], t)
  | _, '"' :: '"' :: '"' :: '"' :: t => some (['"'], t)
  | _, '"' :: '"' :: '"' :: t => some ([], t)
  | _, '\\' :: 'u' :: a :: b :: c :: d :: t =>
    match scalar? [a, b, c, d] with
    | some x => (basicLines? .text t).map (consed x)
    | none => none
  | _, '\\' :: 'U' :: a :: b :: c :: d :: e :: f :: g :: h :: t =>
    match scalar? [a, b, c, d, e, f, g, h] with
    | some x => (basicLines? .text t).map (consed x)
    | none => none
  | _, '\\' :: e :: t =>
    match shortEscape? e with
    | some x => (basicLines? .text t).map (consed x)
    | none =>
      if isSpace e || e = '\n' || e = '\r' then basicLines? .toLineEnd (e :: t) else none
  | _, '\r' :: '\n' :: t => (basicLines? .text t).map (consed '\n')
  | _, c :: t =>
    if c = '\n' || isPrintable c then (basicLines? .text t).map (consed c) else none

def literalString? : Text → Option (Text × Text)
  | [] => none
  | c :: t =>
    if c = '\'' then some ([], t)
    else if isPrintable c then (literalString? t).map (consed c)
    else none

def literalLines? : Text → Option (Text × Text)
  | [] => none
  | '\'' :: '\'' :: '\'' :: '\'' :: '\'' :: t => some (['\'', '\''], t)
  | '\'' :: '\'' :: '\'' :: '\'' :: t => some (['\''], t)
  | '\'' :: '\'' :: '\'' :: t => some ([], t)
  | '\r' :: '\n' :: t => (literalLines? t).map (consed '\n')
  | c :: t => if c = '\n' || isPrintable c then (literalLines? t).map (consed c) else none

/-- The text without a line end at its front. -/
def dropLineEnd : Text → Text
  | '\n' :: t => t
  | '\r' :: '\n' :: t => t
  | t => t

def string? : Text → Option (Text × Text)
  | '"' :: '"' :: '"' :: t => basicLines? .text (dropLineEnd t)
  | '\'' :: '\'' :: '\'' :: t => literalLines? (dropLineEnd t)
  | '"' :: t => basicString? t
  | '\'' :: t => literalString? t
  | _ => none

/-- Digits with single underscores between them, without the underscores. -/
def digits? (isDigit : Char → Bool) (t : Text) : Option Text :=
  let groups := t.splitOn '_'
  if groups.all fun g => !g.isEmpty && g.all isDigit then some groups.flatten else none

def splitSign : Text → Bool × Text
  | '-' :: t => (true, t)
  | '+' :: t => (false, t)
  | t => (false, t)

/-- A whole number without a sign: no zero in front of other digits. -/
def whole? (t : Text) : Option Text :=
  match t with
  | ['0'] => some t
  | '0' :: _ => none
  | _ => digits? Text.isDigit t

def maxInteger : Nat := 9223372036854775807

def prefixed? (isDigit : Char → Bool) (base : Nat) (t : Text) : Option Toml := do
  let n := Text.digitsValue (← digits? isDigit t) base
  if n ≤ maxInteger then some (integer n) else none

def integer? : Text → Option Toml
  | '0' :: 'x' :: t => prefixed? Text.isHexDigit 16 t
  | '0' :: 'o' :: t => prefixed? (fun c => '0' ≤ c && c ≤ '7') 8 t
  | '0' :: 'b' :: t => prefixed? (fun c => c == '0' || c == '1') 2 t
  | t => do
    let (negative, t) := splitSign t
    let n := Text.digitsValue (← whole? t)
    if negative then if n ≤ maxInteger + 1 then some (integer (-n)) else none
    else if n ≤ maxInteger then some (integer n)
    else none

def exponent? (t : Text) : Option Int := do
  let (negative, t) := splitSign t
  let n : Int := Text.digitsValue (← digits? Text.isDigit t)
  some (if negative then -n else n)

def specialFloats : List Text := ["inf", "nan"]

/-- A floating point number. One that rounds to positive infinity is none. -/
def float? (t : Text) : Option Toml := do
  let (negative, t) := splitSign t
  if specialFloats.elem t then some float
  else
    let (mantissa, exponent) ← match Text.cutFirst? (fun c => c == 'e' || c == 'E') t with
      | some (m, e) => (exponent? e).map fun e => (m, some e)
      | none => some (t, none)
    let (front, decimals) ← match Text.cutFirst? (· == '.') mantissa with
      | some (w, d) => (digits? Text.isDigit d).map fun d => (w, some d)
      | none => some (mantissa, none)
    let front ← whole? front
    if decimals.isNone && exponent.isNone then none
    else
      let numeral : Numeral := {
        digits := Text.digitsValue (front ++ decimals.getD []), decimals := (decimals.getD []).length
        exponent := exponent.getD 0 }
      if negative || numeral.isFinite then some float else none

def datetime? (t : Text) : Option Toml := if isDate t then some datetime else none

def ofWord? (w : Text) : Option Toml :=
  if w = ['t', 'r', 'u', 'e'] then some (boolean true)
  else if w = ['f', 'a', 'l', 's', 'e'] then some (boolean false)
  else (datetime? w).or ((integer? w).or (float? w))

def inWord (c : Char) : Bool :=
  Text.isLetter c || Text.isDigit c || c == '_' || c == '+' || c == '-' || c == '.' || c == ':'

/-- A word and what follows it. A date and a time may have a space between them. -/
def word? (t : Text) : Option (Toml × Text) := do
  let w := t.takeWhile inWord
  let rest := t.dropWhile inWord
  match afterDate? w, rest with
  | some [], ' ' :: c :: r =>
    if inWord c then
      let time := (c :: r).takeWhile inWord
      some (← ofWord? (w ++ ' ' :: time), (c :: r).dropWhile inWord)
    else some (datetime, rest)
  | _, _ => some (← ofWord? w, rest)

end CallManual.Toml
