import CallManual.Text.Identifier
import CallManual.Text.Numeral

/-!
# The size of JSON numbers

A number is read in three rounded steps. Its leading digits fill a word, which takes digits as long
as the number in it stays below 2⁶⁴: first those in front of the point, then those behind it. The
word and the power of ten that belongs to it are each rounded to double precision, and so is their
product, which must not be infinite. A number next to the largest one of double precision may so be
out of range although its own value is not.
-/
namespace CallManual.Json

/-- A number without its sign. -/
structure Number where
  whole : Text
  decimals : Text := []
  exponent : Int := 0
  deriving DecidableEq, Repr

namespace Number

def maxWord : Nat := 18446744073709551615

/-- Appends digits to the number in a word until one does not fit, and counts those left over. -/
def fill (word : Nat) : Text → Nat × Nat
  | [] => (word, 0)
  | d :: ds =>
    let next := 10 * word + Text.digitsValue [d]
    if next ≤ maxWord then fill next ds else (word, ds.length + 1)

/-- The word of a number and its power of ten. Digits of the whole part that are left over raise
the power, decimals that are left over do not count. -/
def scaled (n : Number) : Nat × Int :=
  let (front, skipped) := fill 0 n.whole
  let (word, ignored) := fill front n.decimals
  (word, n.exponent + skipped - (n.decimals.length - ignored : Nat))

/-- The nearest number of 53 significant bits, of two the even one. -/
def rounded (n : Nat) : Nat :=
  let unit := Nat.pow 2 (n.log2 - 52)
  let down := n / unit
  let rest := 2 * (n % unit)
  if rest < unit || (rest = unit && down % 2 = 0) then down * unit else (down + 1) * unit

/-- The largest power of ten in double precision. -/
def maxPower : Nat := 308

def isFinite (n : Number) : Bool :=
  let (word, power) := n.scaled
  if word = 0 || power < 0 then true
  else if maxPower < power then false
  else rounded word * rounded (Nat.pow 10 power.toNat) < Numeral.overflow

end Number

end CallManual.Json
