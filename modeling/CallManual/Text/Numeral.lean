/-!
# Decimal numerals

A numeral stands for its digits, read as one number, divided by ten for each decimal and multiplied
by a power of ten. It is finite when double precision does not round it to infinity.
-/
namespace CallManual

structure Numeral where
  digits : Nat
  decimals : Nat := 0
  exponent : Int := 0
  deriving DecidableEq, Repr

namespace Numeral

/-- Numbers from here on round to infinity. -/
def overflow : Nat := Nat.pow 2 1024 - Nat.pow 2 970

def isFinite (n : Numeral) : Bool :=
  let shift := n.exponent - n.decimals
  let size := (Nat.toDigits 10 n.digits).length + shift
  if n.digits = 0 || size < 300 then true
  else if 310 < size then false
  else n.digits * Nat.pow 10 shift.toNat < overflow * Nat.pow 10 (-shift).toNat

end Numeral

end CallManual
