import ComponentTree.Decimal.Basic

/-!
# Binary floating point numbers

The finite magnitudes of the 64-bit format, in ascending order, are numbered from zero: the number
of a magnitude is its *rank*. The first 2^53 ranks are multiples of one unit, 2^-1074; from there on
the spacing doubles every 2^52 ranks. The rank after the last finite one stands for infinity, so
rounding that overflows needs no case of its own, and the carry from one spacing to the next is
plain addition.
-/

namespace ComponentTree

/-- How many ranks share a spacing. -/
def Binary64.block : Nat := Nat.pow 2 52

/-- The rank after the last finite magnitude. -/
def Binary64.infinityRank : Nat := 2047 * Binary64.block

/-- The scale of the format: magnitudes are counted in units of `1 / unitsPerOne`. -/
def Binary64.unitsPerOne : Nat := Nat.pow 2 1074

/-- A floating point number of 64 bits: a sign and a rank, or no number. Both zeros exist, and what
is no number carries a payload by which it can be told apart. -/
inductive Binary64 where
  | nan (payload : Nat)
  | number (negative : Bool) (rank : Fin (Binary64.infinityRank + 1))
  deriving DecidableEq

namespace Binary64

/-- The doublings of the unit spacing at a rank. -/
def doublings (rank : Nat) : Nat := rank / block - 1

/-- The magnitude at a rank, in units. -/
def unitsAt (rank : Nat) : Nat := (rank - doublings rank * block) * Nat.pow 2 (doublings rank)

/-- The integer nearest to a quotient, the even one of two that are equally near. -/
def roundDiv (num den : Nat) : Nat :=
  let floor := num / den
  let twice := 2 * (num % den)
  if twice < den then floor
  else if den < twice then floor + 1
  else floor + floor % 2

/-- The rank nearest to a quotient of units, the even one of two that are equally near. -/
def nearestRank (num den : Nat) : Nat :=
  let doublings := (num / den).log2 - 52
  doublings * block + roundDiv num (den * Nat.pow 2 doublings)

/-- The number with a sign and a rank, infinite from `infinityRank` on. -/
def ofRank (negative : Bool) (rank : Nat) : Binary64 :=
  .number negative ⟨min rank infinityRank, by omega⟩

/-- The rank nearest to a decimal. Decimals that are beyond the format for the place of their point
are decided without computing the power. -/
def rankOfDecimal (d : Decimal) : Nat :=
  if d.digits.isEmpty || d.point < -330 then 0
  else if 310 < d.point then infinityRank
  else if 0 ≤ d.exponent then
    nearestRank (d.coefficient * Nat.pow 10 d.exponent.toNat * unitsPerOne) 1
  else nearestRank (d.coefficient * unitsPerOne) (Nat.pow 10 (-d.exponent).toNat)

/-- The number nearest to a decimal, infinite when that lies beyond all finite ones. -/
def ofDecimal (negative : Bool) (d : Decimal) : Binary64 := ofRank negative (rankOfDecimal d)

/-- Neither infinite nor no number. -/
def isFinite : Binary64 → Bool
  | .nan _ => false
  | .number _ rank => rank.val < infinityRank

/-- Either zero. -/
def isZero : Binary64 → Bool
  | .nan _ => false
  | .number _ rank => rank.val == 0

/-- The exact value of a finite number, in units. -/
def units? : Binary64 → Option Int
  | .nan _ => none
  | .number negative rank =>
    if rank.val < infinityRank then
      some (if negative then - (unitsAt rank.val : Int) else unitsAt rank.val)
    else none

/-- Equality of numbers: the zeros are one number, and what is no number equals nothing. -/
def equal : Binary64 → Binary64 → Bool
  | .number n₁ r₁, .number n₂ r₂ => r₁ == r₂ && (n₁ == n₂ || r₁.val == 0)
  | _, _ => false

/-- Equality, except that what is no number is alike if its payload is. -/
def alike : Binary64 → Binary64 → Bool
  | .nan p₁, .nan p₂ => p₁ == p₂
  | x, y => x.equal y

end Binary64

end ComponentTree
