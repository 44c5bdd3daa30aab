/-!
Strings of TOML: basic ones in double quotes, with escapes; literal ones in single quotes, without;
and both over several lines, in three quotes. Every reader starts behind the opening quotes and
tells what is left behind the closing ones. A string can be written as a basic one whatever it
holds.
-/
namespace CommandChain.Toml

/-- Characters that stand for themselves nowhere in a document: controls other than the tab. -/
def isControl (c : Char) : Bool := (c.toNat < 0x20 && c ≠ '\t') || c.toNat = 0x7F

def hexNumber? (digits : List Char) : Option Nat :=
  digits.foldl (fun value c => value.bind fun n =>
    if c.isDigit then some (n * 16 + (c.toNat - '0'.toNat))
    else if 'a' ≤ c ∧ c ≤ 'f' then some (n * 16 + (c.toNat - 'a'.toNat + 10))
    else if 'A' ≤ c ∧ c ≤ 'F' then some (n * 16 + (c.toNat - 'A'.toNat + 10))
    else none) (some 0)

/-- The character of a code written in hexadecimal digits, if the code is one of a character. -/
def codeChar? (digits : List Char) : Option Char :=
  (hexNumber? digits).bind fun code =>
    if code < 0xD800 ∨ (0xDFFF < code ∧ code < 0x110000) then some (Char.ofNat code) else none

def letterEscape? : Char → Option Char
  | 'b' => some '\x08'
  | 't' => some '\t'
  | 'n' => some '\n'
  | 'f' => some '\x0c'
  | 'r' => some '\r'
  | '"' => some '"'
  | '\\' => some '\\'
  | _ => none

def withChar (c : Char) : List Char × List Char → List Char × List Char
  | (read, rest) => (c :: read, rest)

def readBasic? : List Char → Option (List Char × List Char)
  | [] => none
  | '"' :: rest => some ([], rest)
  | '\\' :: 'u' :: a :: b :: c :: d :: rest => do
    let char ← codeChar? [a, b, c, d]
    (readBasic? rest).map (withChar char)
  | '\\' :: 'U' :: a :: b :: c :: d :: e :: f :: g :: h :: rest => do
    let char ← codeChar? [a, b, c, d, e, f, g, h]
    (readBasic? rest).map (withChar char)
  | '\\' :: letter :: rest => do
    let char ← letterEscape? letter
    (readBasic? rest).map (withChar char)
  | c :: rest => if isControl c ∨ c = '\\' then none else (readBasic? rest).map (withChar c)

def readLiteral? : List Char → Option (List Char × List Char)
  | [] => none
  | '\'' :: rest => some ([], rest)
  | c :: rest => if isControl c then none else (readLiteral? rest).map (withChar c)

/-- Behind a run of quotes that closes a string over several lines: up to two quotes more than three
belong to the string. -/
def closing? (quote : Char) (chars : List Char) : Option (List Char × List Char) :=
  match (chars.takeWhile (· = quote)).length with
  | 0 => none
  | 1 => none
  | 2 => none
  | 3 => some ([], chars.drop 3)
  | 4 => some ([quote], chars.drop 4)
  | _ => some ([quote, quote], chars.drop 5)

def lineEnd? : List Char → Option (List Char)
  | '\n' :: rest => some rest
  | '\r' :: '\n' :: rest => some rest
  | _ => none

def isLineBlank (c : Char) : Bool := c = ' ' || c = '\t'

/-- Behind a backslash that ends a line: the blanks and line ends up to the next character. -/
def skipLineEnds : List Char → List Char
  | [] => []
  | '\r' :: '\n' :: rest => skipLineEnds rest
  | c :: rest => if c = '\n' || isLineBlank c then skipLineEnds rest else c :: rest

/-- Whether nothing but blanks stands before the end of the line. -/
def endsLine (chars : List Char) : Bool := (lineEnd? (chars.dropWhile isLineBlank)).isSome

/-- A basic string over several lines. The first argument bounds its length. -/
def readBasicLines? : Nat → List Char → Option (List Char × List Char)
  | 0, _ => none
  | limit + 1, chars =>
    match closing? '"' chars with
    | some closed => some closed
    | none =>
      match chars with
      | [] => none
      | '\\' :: rest =>
        if endsLine rest then readBasicLines? limit (skipLineEnds rest)
        else match rest with
          | 'u' :: a :: b :: c :: d :: rest => do
            let char ← codeChar? [a, b, c, d]
            (readBasicLines? limit rest).map (withChar char)
          | 'U' :: a :: b :: c :: d :: e :: f :: g :: h :: rest => do
            let char ← codeChar? [a, b, c, d, e, f, g, h]
            (readBasicLines? limit rest).map (withChar char)
          | letter :: rest => do
            let char ← letterEscape? letter
            (readBasicLines? limit rest).map (withChar char)
          | [] => none
      | c :: rest =>
        match lineEnd? chars with
        | some rest => (readBasicLines? limit rest).map (withChar '\n')
        | none => if isControl c then none else (readBasicLines? limit rest).map (withChar c)

def readLiteralLines? : Nat → List Char → Option (List Char × List Char)
  | 0, _ => none
  | limit + 1, chars =>
    match closing? '\'' chars with
    | some closed => some closed
    | none =>
      match chars with
      | [] => none
      | c :: rest =>
        match lineEnd? chars with
        | some rest => (readLiteralLines? limit rest).map (withChar '\n')
        | none => if isControl c then none else (readLiteralLines? limit rest).map (withChar c)

/-- A line end right behind the opening quotes does not belong to the string. -/
def dropFirstLineEnd (chars : List Char) : List Char := (lineEnd? chars).getD chars

def readString? : List Char → Option (String × List Char)
  | '"' :: '"' :: '"' :: rest =>
    (readBasicLines? (rest.length + 1) (dropFirstLineEnd rest)).map fun (s, rest) =>
      (String.ofList s, rest)
  | '\'' :: '\'' :: '\'' :: rest =>
    (readLiteralLines? (rest.length + 1) (dropFirstLineEnd rest)).map fun (s, rest) =>
      (String.ofList s, rest)
  | '"' :: rest => (readBasic? rest).map fun (s, rest) => (String.ofList s, rest)
  | '\'' :: rest => (readLiteral? rest).map fun (s, rest) => (String.ofList s, rest)
  | _ => none

def hexDigit (n : Nat) : Char :=
  if n < 10 then Char.ofNat ('0'.toNat + n) else Char.ofNat ('A'.toNat + (n - 10))

def escapeChar (c : Char) : List Char :=
  match c with
  | '"' => ['\\', '"']
  | '\\' => ['\\', '\\']
  | '\x08' => ['\\', 'b']
  | '\t' => ['\\', 't']
  | '\n' => ['\\', 'n']
  | '\x0c' => ['\\', 'f']
  | '\r' => ['\\', 'r']
  | _ =>
    if isControl c then ['\\', 'u', '0', '0', hexDigit (c.toNat / 16), hexDigit (c.toNat % 16)]
    else [c]

def printString (s : String) : List Char := '"' :: (s.toList.flatMap escapeChar ++ ['"'])

end CommandChain.Toml
