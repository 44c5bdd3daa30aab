import CommandChain.Number.Reading

/-!
Values of TOML that are written as one word: numbers, truth values, dates and times. Of a date or
time only matters here whether it is one.
-/
namespace CommandChain.Toml

inductive Scalar where
  | integer (i : Int)
  | float (x : Binary64)
  | boolean (b : Bool)
  | dateTime
  deriving Repr

/-- Digits of a base, with single underscores between them. -/
def groupedDigits? (isDigit : Char → Bool) : List Char → Option (List Char)
  | [] => none
  | [c] => if isDigit c then some [c] else none
  | c :: '_' :: rest => if isDigit c then (groupedDigits? isDigit rest).map (c :: ·) else none
  | c :: rest => if isDigit c then (groupedDigits? isDigit rest).map (c :: ·) else none

def digitValue (c : Char) : Nat :=
  if c.isDigit then c.toNat - '0'.toNat
  else if 'a' ≤ c ∧ c ≤ 'f' then c.toNat - 'a'.toNat + 10
  else c.toNat - 'A'.toNat + 10

def isHexDigit (c : Char) : Bool := c.isDigit || ('a' ≤ c && c ≤ 'f') || ('A' ≤ c && c ≤ 'F')

def isOctalDigit (c : Char) : Bool := '0' ≤ c && c ≤ '7'

def isBinaryDigit (c : Char) : Bool := c = '0' || c = '1'

def basedNumber (base : Nat) (digits : List Char) : Nat :=
  digits.foldl (fun n c => n * base + digitValue c) 0

def inRange? (i : Int) : Option Int :=
  if -(powerOfTwo 63 : Int) ≤ i ∧ i < (powerOfTwo 63 : Int) then some i else none

/-- Digits without a zero in front, unless they are a zero. -/
def plainDigits? (chars : List Char) : Option (List Char) :=
  (groupedDigits? Char.isDigit chars).bind fun digits =>
    if digits.head? = some '0' ∧ 1 < digits.length then none else some digits

def decimalInteger? (chars : List Char) : Option Int :=
  let (negative, rest) := splitSign chars
  (plainDigits? rest).bind fun digits =>
    let n : Int := basedNumber 10 digits
    inRange? (if negative then -n else n)

def basedInteger? (base : Nat) (isDigit : Char → Bool) (chars : List Char) : Option Int :=
  (groupedDigits? isDigit chars).bind fun digits => inRange? (basedNumber base digits)

def integer? : List Char → Option Int
  | '0' :: 'x' :: rest => basedInteger? 16 isHexDigit rest
  | '0' :: 'o' :: rest => basedInteger? 8 isOctalDigit rest
  | '0' :: 'b' :: rest => basedInteger? 2 isBinaryDigit rest
  | chars => decimalInteger? chars

def exponent? (chars : List Char) : Option Int :=
  let (negative, rest) := splitSign chars
  (groupedDigits? Char.isDigit rest).map fun digits =>
    let n : Int := basedNumber 10 digits
    if negative then -n else n

def isExponentMark (c : Char) : Bool := c = 'e' || c = 'E'

/-- Digits with a fraction or an exponent or both. -/
def decimalFloat? (chars : List Char) : Option Binary64 := do
  let (negative, body) := splitSign chars
  let whole ← plainDigits? (body.takeWhile fun c => c.isDigit || c = '_')
  let tail := body.dropWhile fun c => c.isDigit || c = '_'
  let (fraction, tail) ← match tail with
    | '.' :: rest =>
      (groupedDigits? Char.isDigit (rest.takeWhile fun c => c.isDigit || c = '_')).map fun digits =>
        (digits, rest.dropWhile fun c => c.isDigit || c = '_')
    | rest => if rest = [] then none else some ([], rest)
  let exponent ← match tail with
    | [] => some 0
    | mark :: rest => if isExponentMark mark then exponent? rest else none
  let digits := basedNumber 10 (whole ++ fraction)
  let x := Binary64.ofDecimal negative digits (exponent - fraction.length)
  if x.isInfinite ∧ ¬x.isNegative then none else some x

def float? (chars : List Char) : Option Binary64 :=
  let (negative, rest) := splitSign chars
  if rest = ['i', 'n', 'f'] then some (.infinity negative)
  else if rest = ['n', 'a', 'n'] then some .nan
  else decimalFloat? chars

def fixedNumber? (width : Nat) (chars : List Char) : Option (Nat × List Char) :=
  if (chars.take width).length = width then
    (digitsValue? (chars.take width)).map fun n => (n, chars.drop width)
  else none

def isLeapYear (year : Nat) : Bool := year % 4 = 0 && (year % 100 ≠ 0 || year % 400 = 0)

def daysInMonth (year month : Nat) : Nat :=
  match month with
  | 2 => if isLeapYear year then 29 else 28
  | 4 => 30
  | 6 => 30
  | 9 => 30
  | 11 => 30
  | _ => 31

def after? (c : Char) : List Char → Option (List Char)
  | d :: rest => if d = c then some rest else none
  | [] => none

def afterDate? (chars : List Char) : Option (List Char) := do
  let (year, rest) ← fixedNumber? 4 chars
  let (month, rest) ← fixedNumber? 2 (← after? '-' rest)
  let (day, rest) ← fixedNumber? 2 (← after? '-' rest)
  if 1 ≤ month ∧ month ≤ 12 ∧ 1 ≤ day ∧ day ≤ daysInMonth year month then some rest else none

def afterTime? (chars : List Char) : Option (List Char) := do
  let (hour, rest) ← fixedNumber? 2 chars
  let (minute, rest) ← fixedNumber? 2 (← after? ':' rest)
  let (second, rest) ← fixedNumber? 2 (← after? ':' rest)
  if 23 < hour ∨ 59 < minute ∨ 60 < second then none
  else match rest with
    | '.' :: fraction =>
      if fraction.takeWhile Char.isDigit = [] then none else some (fraction.dropWhile Char.isDigit)
    | rest => some rest

/-- Behind an offset from universal time, if there is one. -/
def afterOffset? : List Char → Option (List Char)
  | 'Z' :: rest => some rest
  | 'z' :: rest => some rest
  | sign :: rest =>
    if sign = '+' ∨ sign = '-' then do
      let (hour, rest) ← fixedNumber? 2 rest
      let (minute, rest) ← fixedNumber? 2 (← after? ':' rest)
      if 23 < hour ∨ 59 < minute then none else some rest
    else some (sign :: rest)
  | [] => some []

def isDateTime (chars : List Char) : Bool :=
  match afterDate? chars with
  | some [] => true
  | some (separator :: rest) =>
    (separator = 'T' || separator = 't' || separator = ' ') &&
      ((afterTime? rest).bind afterOffset?) = some []
  | none => afterTime? chars = some []

def scalar? (chars : List Char) : Option Scalar :=
  if chars = ['t', 'r', 'u', 'e'] then some (.boolean true)
  else if chars = ['f', 'a', 'l', 's', 'e'] then some (.boolean false)
  else match integer? chars with
    | some i => some (.integer i)
    | none =>
      match float? chars with
      | some x => some (.float x)
      | none => if isDateTime chars then some .dateTime else none

def isWordPart (c : Char) : Bool :=
  c.isAlphanum || c = '_' || c = '+' || c = '-' || c = '.' || c = ':'

/-- A word and what follows it. A date and a time may have one blank between them. -/
def splitWord (chars : List Char) : List Char × List Char :=
  let word := chars.takeWhile isWordPart
  let rest := chars.dropWhile isWordPart
  match rest with
  | ' ' :: c :: tail =>
    if afterDate? word = some [] ∧ c.isDigit then
      (word ++ ' ' :: (c :: tail).takeWhile isWordPart, (c :: tail).dropWhile isWordPart)
    else (word, rest)
  | _ => (word, rest)

def readScalar? (chars : List Char) : Option (Scalar × List Char) :=
  let (word, rest) := splitWord chars
  (scalar? word).map fun scalar => (scalar, rest)

end CommandChain.Toml
