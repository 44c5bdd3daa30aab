import CommandChain.Toml.Document
import CommandChain.Toml.Strings

/-!
Reading documents of TOML. Every reader takes the characters ahead and tells what it read and what
is left. Values nest less than eighty deep, and names are fewer than eighty in one key.
-/
namespace CommandChain.Toml

def skipBlanks (chars : List Char) : List Char := chars.dropWhile isLineBlank

/-- Behind a comment, if there is one; none if it holds what no document may. -/
def afterComment? : List Char → Option (List Char)
  | '#' :: rest =>
    let text := rest.takeWhile fun c => c ≠ '\n' && c ≠ '\r'
    if text.any isControl then none else some (rest.dropWhile fun c => c ≠ '\n' && c ≠ '\r')
  | rest => some rest

/-- Behind the rest of a line that holds nothing more: blanks, a comment, and its end. -/
def afterLine? (chars : List Char) : Option (List Char) := do
  let rest ← afterComment? (skipBlanks chars)
  if rest = [] then some [] else lineEnd? rest

/-- Behind blanks, comments and line ends. The first argument bounds the number of lines. -/
def skipLines? : Nat → List Char → Option (List Char)
  | 0, _ => none
  | limit + 1, chars => do
    let rest ← afterComment? (skipBlanks chars)
    match lineEnd? rest with
    | some rest => skipLines? limit rest
    | none => some rest

def isBareKeyPart (c : Char) : Bool := c.isAlphanum || c = '_' || c = '-'

/-- One name: bare, or a string on one line. -/
def readName? : List Char → Option (String × List Char)
  | '"' :: rest => (readBasic? rest).map fun (s, rest) => (String.ofList s, rest)
  | '\'' :: rest => (readLiteral? rest).map fun (s, rest) => (String.ofList s, rest)
  | chars =>
    if chars.takeWhile isBareKeyPart = [] then none
    else some (String.ofList (chars.takeWhile isBareKeyPart), chars.dropWhile isBareKeyPart)

/-- Names with dots between them, fewer than `limit`; the last one is apart. Blanks may stand around
each of them. -/
def readKey? : Nat → List Char → Option ((List String × String) × List Char)
  | 0, _ => none
  | limit + 1, chars => do
    let (name, rest) ← readName? (skipBlanks chars)
    match skipBlanks rest with
    | '.' :: rest =>
      let ((path, key), rest) ← readKey? limit rest
      some ((name :: path, key), rest)
    | rest => some (([], name), rest)

def maxKeyNames : Nat := 79

def maxNesting : Nat := 79

/-- Items with commas between them up to the closing bracket, each read by `readItem?`. The first
argument bounds their number. -/
def readItems? (readItem? : List Char → Option (Value × List Char)) :
    Nat → List Char → Option (List Value × List Char)
  | 0, _ => none
  | limit + 1, chars => do
    match ← skipLines? (chars.length + 1) chars with
    | ']' :: rest => some ([], rest)
    | ahead =>
      let (item, rest) ← readItem? ahead
      match ← skipLines? (rest.length + 1) rest with
      | ']' :: rest => some ([item], rest)
      | ',' :: rest =>
        let (items, rest) ← readItems? readItem? limit rest
        some (item :: items, rest)
      | _ => none

def readPair? (readItem? : List Char → Option (Value × List Char)) (chars : List Char) :
    Option ((List String × String × Value) × List Char) := do
  let ((path, key), rest) ← readKey? maxKeyNames chars
  let (value, rest) ← readItem? (skipBlanks (← after? '=' rest))
  some ((path, key, value), rest)

def readPairs? (readItem? : List Char → Option (Value × List Char)) :
    Nat → List Char → Option (List (List String × String × Value) × List Char)
  | 0, _ => none
  | limit + 1, chars => do
    let (pair, rest) ← readPair? readItem? chars
    match skipBlanks rest with
    | '}' :: rest => some ([pair], rest)
    | ',' :: rest =>
      let (pairs, rest) ← readPairs? readItem? limit rest
      some (pair :: pairs, rest)
    | _ => none

/-- A value in which others nest less deep than `depth`. -/
def readValue? : Nat → List Char → Option (Value × List Char)
  | _, '"' :: rest => (readString? ('"' :: rest)).map fun (s, rest) => (.string s, rest)
  | _, '\'' :: rest => (readString? ('\'' :: rest)).map fun (s, rest) => (.string s, rest)
  | 0, '[' :: _ => none
  | depth + 1, '[' :: rest =>
    (readItems? (readValue? depth) (rest.length + 1) rest).map fun (items, rest) =>
      (.array items, rest)
  | 0, '{' :: _ => none
  | depth + 1, '{' :: rest =>
    match skipBlanks rest with
    | '}' :: rest => some (.table [], rest)
    | _ => do
      let (pairs, rest) ← readPairs? (readValue? depth) (rest.length + 1) rest
      some (← inlineTable? pairs, rest)
  | _, chars => (readScalar? chars).map fun (scalar, rest) => (.scalar scalar, rest)

def readStatement? : List Char → Option (Statement × List Char)
  | '[' :: '[' :: rest => do
    let ((path, name), rest) ← readKey? maxKeyNames rest
    some (.arrayHeader path name, ← after? ']' (← after? ']' rest))
  | '[' :: rest => do
    let ((path, name), rest) ← readKey? maxKeyNames rest
    some (.header path name, ← after? ']' rest)
  | chars => do
    let ((path, key, value), rest) ← readPair? (readValue? maxNesting) chars
    some (.keyValue path key value, rest)

def readStatements? : Nat → List Char → Option (List Statement)
  | 0, _ => none
  | limit + 1, chars =>
    match afterLine? chars with
    | some [] => some []
    | some rest => readStatements? limit rest
    | none => do
      let (statement, rest) ← readStatement? (skipBlanks chars)
      let statements ← readStatements? limit (← afterLine? rest)
      some (statement :: statements)

/-- The table that a document describes. A mark of byte order may stand in front. -/
def readDocument? (text : String) : Option (OrderedMap String Value) :=
  let chars := match text.toList with
    | '\ufeff' :: rest => rest
    | chars => chars
  (readStatements? (chars.length + 1) chars).bind assemble?

end CommandChain.Toml
