import CommandChain.Number.Reading

/-!
JSON documents as trees that keep the order of members and the spelling of numbers, and the reading
of a text into such a tree.
-/
namespace CommandChain

/-- A number as it is written: whether it has a sign, its digits, and, when it has a fraction or an
exponent, the binary number it denotes. -/
inductive JsonNumber where
  | whole (negative : Bool) (digits : Nat)
  | binary (x : Binary64)
  deriving Repr

inductive Json where
  | null
  | bool (b : Bool)
  | number (n : JsonNumber)
  | string (s : String)
  | array (items : List Json)
  | object (members : List (String × Json))

namespace Json

def isBlank (c : Char) : Bool := c = ' ' || c = '\n' || c = '\t' || c = '\r'

def skipBlanks (chars : List Char) : List Char := chars.dropWhile isBlank

def hexValue? (c : Char) : Option Nat :=
  if c.isDigit then some (c.toNat - '0'.toNat)
  else if 'a' ≤ c ∧ c ≤ 'f' then some (c.toNat - 'a'.toNat + 10)
  else if 'A' ≤ c ∧ c ≤ 'F' then some (c.toNat - 'A'.toNat + 10)
  else none

def readUnit? : List Char → Option (Nat × List Char)
  | a :: b :: c :: d :: rest =>
    match hexValue? a, hexValue? b, hexValue? c, hexValue? d with
    | some a, some b, some c, some d => some (((a * 16 + b) * 16 + c) * 16 + d, rest)
    | _, _, _, _ => none
  | _ => none

/-- The character of an escape of four digits; one outside the basic plane takes two of them. -/
def readEscapedUnit? (chars : List Char) : Option (Char × List Char) :=
  match readUnit? chars with
  | none => none
  | some (first, rest) =>
    if first < 0xD800 ∨ 0xDFFF < first then some (Char.ofNat first, rest)
    else if 0xDC00 ≤ first then none
    else match rest with
      | '\\' :: 'u' :: rest =>
        match readUnit? rest with
        | some (second, rest) =>
          if 0xDC00 ≤ second ∧ second ≤ 0xDFFF then
            some (Char.ofNat (0x10000 + (first - 0xD800) * 0x400 + (second - 0xDC00)), rest)
          else none
        | none => none
      | _ => none

def readEscape? : List Char → Option (Char × List Char)
  | '"' :: rest => some ('"', rest)
  | '\\' :: rest => some ('\\', rest)
  | '/' :: rest => some ('/', rest)
  | 'b' :: rest => some ('\x08', rest)
  | 'f' :: rest => some ('\x0c', rest)
  | 'n' :: rest => some ('\n', rest)
  | 'r' :: rest => some ('\r', rest)
  | 't' :: rest => some ('\t', rest)
  | 'u' :: rest => readEscapedUnit? rest
  | _ => none

/-- The characters up to the closing quote. The first argument bounds their number. -/
def readStringTail? : Nat → List Char → List Char → Option (String × List Char)
  | 0, _, _ => none
  | _ + 1, _, [] => none
  | limit + 1, read, c :: rest =>
    if c = '"' then some (String.ofList read.reverse, rest)
    else if c = '\\' then
      match readEscape? rest with
      | some (char, rest) => readStringTail? limit (char :: read) rest
      | none => none
    else if c.toNat < 0x20 then none
    else readStringTail? limit (c :: read) rest

def readString? (chars : List Char) : Option (String × List Char) :=
  match chars with
  | '"' :: rest => readStringTail? (rest.length + 1) [] rest
  | _ => none

def isNumberPart (c : Char) : Bool :=
  c.isDigit || c = '-' || c = '+' || c = '.' || c = 'e' || c = 'E'

/-- No zeros lead, and digits stand on both sides of the point. -/
def number? (chars : List Char) : Option JsonNumber :=
  let (negative, body) := match chars with
    | '-' :: rest => (true, rest)
    | rest => (false, rest)
  let whole := body.takeWhile Char.isDigit
  let tail := body.dropWhile Char.isDigit
  if whole = [] ∨ (whole.head? = some '0' ∧ 1 < whole.length) then none
  else match tail with
    | [] => (digitsValue? whole).map (.whole negative)
    | '.' :: rest =>
      if (rest.head?.map Char.isDigit).getD false then
        (Binary64.readDecimal? negative body).map .binary
      else none
    | _ => (Binary64.readDecimal? negative body).map .binary

mutual

/-- One value. The first argument bounds how deep the values nest, counted in characters. -/
def readValue? : Nat → List Char → Option (Json × List Char)
  | 0, _ => none
  | limit + 1, chars =>
    match skipBlanks chars with
    | 'n' :: 'u' :: 'l' :: 'l' :: rest => some (.null, rest)
    | 't' :: 'r' :: 'u' :: 'e' :: rest => some (.bool true, rest)
    | 'f' :: 'a' :: 'l' :: 's' :: 'e' :: rest => some (.bool false, rest)
    | '"' :: rest => (readString? ('"' :: rest)).map fun (s, rest) => (.string s, rest)
    | '[' :: rest =>
      match skipBlanks rest with
      | ']' :: rest => some (.array [], rest)
      | rest => (readItems? limit rest).map fun (items, rest) => (.array items, rest)
    | '{' :: rest =>
      match skipBlanks rest with
      | '}' :: rest => some (.object [], rest)
      | rest => (readMembers? limit rest).map fun (members, rest) => (.object members, rest)
    | other =>
      (number? (other.takeWhile isNumberPart)).map fun n =>
        (.number n, other.dropWhile isNumberPart)

def readItems? : Nat → List Char → Option (List Json × List Char)
  | 0, _ => none
  | limit + 1, chars =>
    match readValue? limit chars with
    | none => none
    | some (item, rest) =>
      match skipBlanks rest with
      | ',' :: rest => (readItems? limit rest).map fun (items, rest) => (item :: items, rest)
      | ']' :: rest => some ([item], rest)
      | _ => none

def readMembers? : Nat → List Char → Option (List (String × Json) × List Char)
  | 0, _ => none
  | limit + 1, chars =>
    match readString? (skipBlanks chars) with
    | none => none
    | some (key, rest) =>
      match skipBlanks rest with
      | ':' :: rest =>
        match readValue? limit rest with
        | none => none
        | some (value, rest) =>
          match skipBlanks rest with
          | ',' :: rest =>
            (readMembers? limit rest).map fun (members, rest) => ((key, value) :: members, rest)
          | '}' :: rest => some ([(key, value)], rest)
          | _ => none
      | _ => none

end

/-- Reads a document: one value and nothing but blanks around it. -/
def read? (text : String) : Option Json :=
  match readValue? (2 * text.length + 2) text.toList with
  | some (value, rest) => if skipBlanks rest = [] then some value else none
  | none => none

end Json
end CommandChain
