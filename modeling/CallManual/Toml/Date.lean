import CallManual.Text.Identifier

/-!
# Dates and times

A date, a time of day, or both, and then also an offset from universal time.
-/
namespace CallManual.Toml

/-- The number of two digits, if it lies in the bounds. -/
def pair? (lo hi : Nat) (a b : Char) : Option Nat :=
  if Text.isDigit a && Text.isDigit b then
    let n := Text.digitsValue [a, b]
    if lo ≤ n && n ≤ hi then some n else none
  else none

def daysIn (year month : Nat) : Nat :=
  if month = 2 then
    if year % 4 = 0 && (year % 100 != 0 || year % 400 = 0) then 29 else 28
  else if [4, 6, 9, 11].contains month then 30
  else 31

/-- What follows a date. -/
def afterDate? : Text → Option Text
  | a :: b :: c :: d :: '-' :: m :: n :: '-' :: e :: f :: t => do
    if [a, b, c, d].all Text.isDigit then
      let month ← pair? 1 12 m n
      let day ← pair? 1 31 e f
      if day ≤ daysIn (Text.digitsValue [a, b, c, d]) month then some t else none
    else none
  | _ => none

/-- What follows a time of day with seconds. A minute may have 60 as its last second. -/
def afterTime? : Text → Option Text
  | a :: b :: ':' :: c :: d :: ':' :: e :: f :: t => do
    let _ ← pair? 0 23 a b
    let _ ← pair? 0 59 c d
    let _ ← pair? 0 60 e f
    match t with
    | '.' :: t =>
      if (t.takeWhile Text.isDigit).isEmpty then none else some (t.dropWhile Text.isDigit)
    | t => some t
  | _ => none

def isOffset : Text → Bool
  | [] => true
  | [c] => c == 'Z' || c == 'z'
  | [s, a, b, ':', c, d] =>
    (s == '+' || s == '-') && (pair? 0 23 a b).isSome && (pair? 0 59 c d).isSome
  | _ => false

/-- The whole text is a date, a time or both. -/
def isDate (t : Text) : Bool :=
  match afterDate? t with
  | some [] => true
  | some (c :: t) => (c == 'T' || c == 't' || c == ' ') && (afterTime? t).any isOffset
  | none => (afterTime? t).any List.isEmpty

end CallManual.Toml
