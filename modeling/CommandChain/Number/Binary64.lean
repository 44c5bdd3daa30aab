import CommandChain.Number.Powers

/-!
Binary floating-point numbers of 64 bits, held as their bits: which bits stand for which number,
and the number nearest to a given ratio. Nothing here computes with them, so equality is all the
arithmetic there is: it differs from equality of bits on zeros and on what is not a number.
-/
namespace CommandChain

structure Binary64 where
  bits : UInt64
  deriving DecidableEq, Repr, Inhabited

namespace Binary64

def magnitude (x : Binary64) : Nat := x.bits.toNat % powerOfTwo 63

def isNegative (x : Binary64) : Bool := powerOfTwo 63 ≤ x.bits.toNat

/-- The magnitude of the infinities: every bit of the exponent, none of the fraction. -/
def infinityBits : Nat := 2047 * powerOfTwo 52

def isNaN (x : Binary64) : Bool := infinityBits < x.magnitude

def isInfinite (x : Binary64) : Bool := x.magnitude = infinityBits

def isZero (x : Binary64) : Bool := x.magnitude = 0

def ofMagnitude (negative : Bool) (magnitude : Nat) : Binary64 :=
  ⟨UInt64.ofNat (magnitude + if negative then powerOfTwo 63 else 0)⟩

def nan : Binary64 := ofMagnitude false (infinityBits + powerOfTwo 51)

def infinity (negative : Bool) : Binary64 := ofMagnitude negative infinityBits

def zero (negative : Bool) : Binary64 := ofMagnitude negative 0

/-- Equality of the numbers: the zeros are equal, and what is not a number equals nothing. -/
def equals (x y : Binary64) : Bool :=
  !x.isNaN && !y.isNaN && (x.bits = y.bits || (x.isZero && y.isZero))

def leastExponent : Int := -1074

/-- A finite magnitude as a whole number of units, with the exponent of two of the unit. -/
def units (x : Binary64) : Nat × Int :=
  let field : Nat := x.magnitude / powerOfTwo 52
  let fraction : Nat := x.magnitude % powerOfTwo 52
  if field = 0 then (fraction, leastExponent)
  else (fraction + powerOfTwo 52, field + (leastExponent - 1))

/-- The ratio as a quotient of whole numbers, over two to the exponent. -/
def scaled (num den : Nat) (exponent : Int) : Nat × Nat :=
  if 0 ≤ exponent then (num, den * powerOfTwo exponent.toNat)
  else (num * powerOfTwo (-exponent).toNat, den)

/-- A quotient rounded to the nearest whole number, a half going to the even neighbour. -/
def roundHalfEven (num den : Nat) : Nat :=
  let quotient := num / den
  let twice := 2 * (num % den)
  if twice < den then quotient
  else if den < twice then quotient + 1
  else quotient + quotient % 2

/-- The exponent of the last place kept: 53 binary places, or as many as the least exponent leaves.
-/
def lastPlace (num den : Nat) : Int :=
  let guess : Int := max ((num.log2 : Int) - den.log2 - 52) leastExponent
  let (n, d) := scaled num den guess
  if n < d * powerOfTwo 52 ∧ leastExponent < guess then guess - 1 else guess

/-- The number nearest to a ratio. A ratio half a unit past the largest number is infinite. -/
def ofRatio (negative : Bool) (num den : Nat) : Binary64 :=
  if num = 0 then zero negative
  else
    let exponent := lastPlace num den
    let (n, d) := scaled num den exponent
    let magnitude := (exponent - leastExponent).toNat * powerOfTwo 52 + roundHalfEven n d
    if infinityBits ≤ magnitude then infinity negative else ofMagnitude negative magnitude

def decimalLength (n : Nat) : Nat := (Nat.toDigits 10 n).length

/-- The number nearest to `digits` times ten to `exponent`. Beyond 400 places to either side of the
point the answer does not depend on the digits. -/
def ofDecimal (negative : Bool) (digits : Nat) (exponent : Int) : Binary64 :=
  if digits = 0 then zero negative
  else
    let top : Int := decimalLength digits + exponent
    if 400 < top then infinity negative
    else if top < -400 then zero negative
    else if 0 ≤ exponent then ofRatio negative (digits * powerOfTen exponent.toNat) 1
    else ofRatio negative digits (powerOfTen (-exponent).toNat)

def ofInt (i : Int) : Binary64 := ofRatio (decide (i < 0)) i.natAbs 1

end Binary64
end CommandChain
