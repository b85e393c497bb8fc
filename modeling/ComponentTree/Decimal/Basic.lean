/-!
# Decimals

A decimal number is kept as its significant digits and the position of the point before them, so one
number has one form: no digit is zero at either end.
-/

namespace ComponentTree

/-- The decimal digits of an integer, after a minus sign if it is negative. -/
def integerText (n : Int) : List Char :=
  let digits := Nat.toDigits 10 n.natAbs
  if n < 0 then '-' :: digits else digits

/-- The value of a row of decimal digits. -/
def digitsValue (ds : List Char) : Nat :=
  ds.foldl (fun n d => 10 * n + (d.toNat - '0'.toNat)) 0

/-- The number `0.ds * 10 ^ point`, where `ds` are the digits. -/
structure Decimal where
  digits : List Char
  point : Int
  deriving DecidableEq, Repr

namespace Decimal

/-- The digits of a row up to its last one that is not zero. -/
def withoutFinalZeros (ds : List Char) : List Char := (ds.reverse.dropWhile (· == '0')).reverse

/-- The number `0.ds * 10 ^ point` for any row of digits. -/
def ofDigits (ds : List Char) (point : Int) : Decimal where
  digits := withoutFinalZeros (ds.dropWhile (· == '0'))
  point := point - (ds.takeWhile (· == '0')).length

/-- The number `n * 10 ^ exponent`. -/
def ofNat (n : Nat) (exponent : Int) : Decimal :=
  let ds := Nat.toDigits 10 n
  ofDigits ds (ds.length + exponent)

/-- The digits as an integer, which the power of ten `exponent` makes the number. -/
def coefficient (d : Decimal) : Nat := digitsValue d.digits

/-- The power of ten that belongs to the coefficient. -/
def exponent (d : Decimal) : Int := d.point - d.digits.length

end Decimal

end ComponentTree
