import CommandChain.Number.Binary64

/-!
Reading numbers from text: whole numbers in a range, and binary numbers in decimal notation. Only
the ASCII digits are digits here.
-/
namespace CommandChain

def digitsValue? (chars : List Char) : Option Nat :=
  if chars ≠ [] ∧ chars.all Char.isDigit then
    some (chars.foldl (fun n c => n * 10 + (c.toNat - '0'.toNat)) 0)
  else none

def splitSign : List Char → Bool × List Char
  | '-' :: rest => (true, rest)
  | '+' :: rest => (false, rest)
  | chars => (false, chars)

def readInt64? (text : String) : Option Int :=
  let (negative, rest) := splitSign text.toList
  match digitsValue? rest with
  | some n =>
    if negative then if n ≤ powerOfTwo 63 then some (-(n : Int)) else none
    else if n < powerOfTwo 63 then some n else none
  | none => none

/-- An unsigned whole number of 64 bits. A minus sign is refused, before zero too. -/
def readNat64? (text : String) : Option Nat :=
  let digits := match text.toList with
    | '+' :: rest => rest
    | chars => chars
  match digitsValue? digits with
  | some n => if n < powerOfTwo 64 then some n else none
  | none => none

namespace Binary64

def readExponent? (chars : List Char) : Option Int :=
  let (negative, rest) := splitSign chars
  (digitsValue? rest).map fun n => if negative then -(n : Int) else n

/-- Digits with at most one point among them and an exponent after them, if any. -/
def readDecimal? (negative : Bool) (chars : List Char) : Option Binary64 :=
  let whole := chars.takeWhile Char.isDigit
  let afterWhole := chars.dropWhile Char.isDigit
  let (fraction, tail) := match afterWhole with
    | '.' :: rest => (rest.takeWhile Char.isDigit, rest.dropWhile Char.isDigit)
    | rest => ([], rest)
  match digitsValue? (whole ++ fraction) with
  | none => none
  | some digits =>
    let exponent? := match tail with
      | [] => some 0
      | 'e' :: rest => readExponent? rest
      | 'E' :: rest => readExponent? rest
      | _ => none
    exponent?.map fun e => ofDecimal negative digits (e - fraction.length)

/-- A number in decimal notation, or in words: infinite, or no number. Case does not matter. -/
def read? (text : String) : Option Binary64 :=
  let (negative, rest) := splitSign text.toList
  match String.ofList (rest.map Char.toLower) with
  | "inf" => some (infinity negative)
  | "infinity" => some (infinity negative)
  | "nan" => some nan
  | _ => readDecimal? negative rest

end Binary64
end CommandChain
