import ComponentTree.Decimal.Binary64

/-!
# The shortest decimal of a floating point number

Of all decimals that read back as a given number the one with the fewest digits is written, and of
those the one nearest to the number. For each count of digits only the two neighbours of the number
on that decimal grid need to be tried.
-/

namespace ComponentTree.Binary64

/-- Decimal places that are enough to tell the leading digits of every magnitude. -/
def guardPlaces : Nat := 400

/-- The magnitude at a rank, cut off after `guardPlaces` decimal places, as an integer. -/
def guarded (rank : Nat) : Nat := unitsAt rank * Nat.pow 10 guardPlaces / unitsPerOne

/-- Whether a decimal reads back as the rank. -/
def readsBack (rank : Nat) (decimal : Decimal) : Bool :=
  rankOfDecimal decimal == rank

/-- The neighbours of a magnitude among the decimals of `count` digits, the nearer one first, and of
two equally near ones the even one. `places` is the number of digits of `guarded rank`. -/
def neighbours (rank places count : Nat) : List Decimal :=
  let step := Nat.pow 10 (places - count)
  let below := guarded rank / step
  let exponent : Int := (places : Int) - count - guardPlaces
  let lower := Decimal.ofNat below exponent
  let upper := Decimal.ofNat (below + 1) exponent
  let twice := 2 * unitsAt rank * Nat.pow 10 guardPlaces
  let middle := (2 * below + 1) * step * unitsPerOne
  if twice < middle || (twice == middle && below % 2 == 0) then [lower, upper] else [upper, lower]

/-- The exact value at a rank as a decimal. -/
def exactDecimal (rank : Nat) : Decimal := .ofNat (unitsAt rank * Nat.pow 5 1074) (-1074)

/-- The first decimal among the candidates of each count, from `count` on and for `more` counts. -/
def firstFrom (candidate : Nat → Option Decimal) : Nat → Nat → Option Decimal
  | 0, _ => none
  | more + 1, count =>
    match candidate count with
    | some decimal => some decimal
    | none => firstFrom candidate more (count + 1)

/-- The first of the neighbours, from `count` digits on and for `more` counts, that reads back. -/
def searchShortest (rank places more count : Nat) : Option Decimal :=
  firstFrom (fun count => (neighbours rank places count).find? (readsBack rank)) more count

/-- The shortest decimal that reads back as the rank. Seventeen digits are always enough. -/
def shortest (rank : Nat) : Decimal :=
  let places := (Nat.toDigits 10 (guarded rank)).length
  (searchShortest rank places 17 1).getD (exactDecimal rank)

/-! ### Layout -/

/-- How the digits of a number are laid out. -/
structure Layout where
  /-- The least position of the leading digit that is written without an exponent. -/
  leastPositional : Int
  /-- The position of the leading digit from which on an exponent is written. -/
  exponentFrom : Int
  /-- The least number of digits of an exponent. -/
  exponentWidth : Nat
  /-- The texts of what is no number and of infinity. -/
  nan : List Char
  infinity : List Char

/-- The layout of descriptions of values: plain up to sixteen digits before the point and four
zeros behind it. -/
def plainLayout : Layout := ⟨-4, 16, 2, "nan".toList, "inf".toList⟩

/-- The layout of written data, which differs in the names of the special numbers. -/
def dataLayout : Layout := { plainLayout with nan := "NaN".toList, infinity := "Infinity".toList }

/-- The exponent mark, its sign and at least `width` digits. -/
def exponentText (width : Nat) (exponent : Int) : List Char :=
  let digits := Nat.toDigits 10 exponent.natAbs
  'e' :: (if exponent < 0 then '-' else '+') :: List.replicate (width - digits.length) '0' ++ digits

/-- The text of a decimal. A number without exponent always has a point. -/
def layOut (layout : Layout) (d : Decimal) : List Char :=
  let ds := d.digits
  let point := d.point
  let leading := point - 1
  if layout.leastPositional ≤ leading && leading < layout.exponentFrom then
    if point ≤ 0 then '0' :: '.' :: List.replicate (-point).toNat '0' ++ ds
    else
      let before := point.toNat
      if ds.length ≤ before then ds ++ List.replicate (before - ds.length) '0' ++ ['.', '0']
      else ds.take before ++ '.' :: ds.drop before
  else
    match ds with
    | [] => []
    | [d] => d :: exponentText layout.exponentWidth leading
    | d :: more => d :: '.' :: more ++ exponentText layout.exponentWidth leading

def magnitudeText (layout : Layout) (rank : Nat) : List Char :=
  if rank = 0 then ['0', '.', '0']
  else if infinityRank ≤ rank then layout.infinity
  else layOut layout (shortest rank)

/-- The text of a number under a layout. -/
def text (layout : Layout) : Binary64 → List Char
  | .nan _ => layout.nan
  | .number negative rank =>
    if negative then '-' :: magnitudeText layout rank.val else magnitudeText layout rank.val

end ComponentTree.Binary64
