import CommandChain.Number.Binary64

/-!
The decimal text of a binary number: the fewest digits that read back as the same number, and of
those the nearest to it, written without an exponent.
-/
namespace CommandChain.Binary64

/-- A positive number and the range of those that round to it, over one denominator. The ends of the
range belong to it when the number's last binary place is even. -/
structure Neighbourhood where
  value : Nat
  low : Nat
  high : Nat
  den : Nat
  closed : Bool

/-- Below a power of two the next smaller number is only half as far away. -/
def neighbourhood (x : Binary64) : Neighbourhood :=
  let (m, q) := x.units
  let below := if m = powerOfTwo 52 ∧ leastExponent < q then 1 else 2
  let (unit, den) := if 0 ≤ q then (powerOfTwo q.toNat, 4) else (1, 4 * powerOfTwo (-q).toNat)
  ⟨4 * m * unit, (4 * m - below) * unit, (4 * m + 2) * unit, den, m % 2 = 0⟩

namespace Neighbourhood

def atPlace (r : Neighbourhood) (place : Int) : Neighbourhood :=
  if 0 ≤ place then ⟨r.value, r.low, r.high, r.den * powerOfTen place.toNat, r.closed⟩
  else
    let scale := powerOfTen (-place).toNat
    ⟨r.value * scale, r.low * scale, r.high * scale, r.den, r.closed⟩

def holds (r : Neighbourhood) (count : Nat) : Bool :=
  if r.closed then decide (r.low ≤ count * r.den ∧ count * r.den ≤ r.high)
  else decide (r.low < count * r.den ∧ count * r.den < r.high)

/-- The whole number of units nearest to the value among those in the range: of the two beside it
the nearer one, and of two equally near the larger. -/
def nearest? (r : Neighbourhood) : Option Nat :=
  let down := r.value / r.den
  let up := down + 1
  match r.holds down, r.holds up with
  | true, true => if r.value - down * r.den < up * r.den - r.value then some down else some up
  | true, false => some down
  | false, true => some up
  | false, false => none

def leadingPlace (r : Neighbourhood) : Int :=
  if r.den ≤ r.value then (decimalLength (r.value / r.den) : Int) - 1
  else -(decimalLength ((r.den - 1) / r.value) : Int)

/-- Tries ever finer grids, at most `tries` of them, and stays on the last. -/
def search (r : Neighbourhood) : Nat → Int → Nat × Int
  | 0, place => ((r.atPlace place).value / (r.atPlace place).den, place)
  | tries + 1, place =>
    match (r.atPlace place).nearest? with
    | some count => (count, place)
    | none => search r tries (place - 1)

end Neighbourhood

/-- The digits of a positive finite number and the power of ten of the last one. Seventeen digits
always tell a number from its neighbours. -/
def shortestDigits (x : Binary64) : Nat × Int :=
  let r := x.neighbourhood
  r.search 17 r.leadingPlace

/-- Digits in positional notation, the last one standing at ten to `place`. -/
def positional (digits : List Char) (place : Int) : List Char :=
  if 0 ≤ place then digits ++ List.replicate place.toNat '0'
  else
    let places := (-place).toNat
    if digits.length ≤ places then
      '0' :: '.' :: (List.replicate (places - digits.length) '0' ++ digits)
    else digits.take (digits.length - places) ++ '.' :: digits.drop (digits.length - places)

def dropTrailingZeros : Nat → Nat → Int → Nat × Int
  | 0, count, place => (count, place)
  | limit + 1, count, place =>
    if count % 10 = 0 ∧ count ≠ 0 then dropTrailingZeros limit (count / 10) (place + 1)
    else (count, place)

/-- Whole numbers have no point, and the sign of zero is kept. -/
def text (x : Binary64) : String :=
  if x.isNaN then "NaN"
  else
    let body : List Char :=
      if x.isInfinite then ['i', 'n', 'f']
      else if x.isZero then ['0']
      else
        let (digits, place) := x.shortestDigits
        let (count, last) := dropTrailingZeros 20 digits place
        positional (Nat.toDigits 10 count) last
    String.ofList (if x.isNegative then '-' :: body else body)

end CommandChain.Binary64
