import CommandChain.Text.Unprintable

/-!
Quoted text for diagnostics: double quotes around it, and an escape for every character that would
not show as itself. Those are the quote, the backslash and the characters that cannot be printed.
-/
namespace CommandChain.Text

/-- The code point in hexadecimal, in braces. -/
def codeEscape (c : Char) : List Char :=
  '\\' :: 'u' :: '{' :: (Nat.toDigits 16 c.toNat ++ ['}'])

def quotedChar (c : Char) : List Char :=
  match c with
  | '\x00' => ['\\', '0']
  | '\t' => ['\\', 't']
  | '\r' => ['\\', 'r']
  | '\n' => ['\\', 'n']
  | '"' => ['\\', '"']
  | '\\' => ['\\', '\\']
  | _ => if isUnprintable c then codeEscape c else [c]

def quoted (text : String) : String :=
  String.ofList ('"' :: (text.toList.flatMap quotedChar ++ ['"']))

def bracketed (texts : List String) : String := "[" ++ ", ".intercalate texts ++ "]"

def quotedMap (pairs : List (String × String)) : String :=
  "\x7b" ++ ", ".intercalate (pairs.map fun (key, value) => quoted key ++ ": " ++ quoted value) ++
    "\x7d"

def record (name : String) (fields : List (String × String)) : String :=
  let parts := fields.map fun (key, value) => key ++ ": " ++ value
  name ++ " \x7b " ++ ", ".intercalate parts ++ " \x7d"

/-- What may be absent: `None`, or what there is in parentheses. -/
def optional (text : Option String) : String :=
  match text with
  | some inner => "Some(" ++ inner ++ ")"
  | none => "None"

end CommandChain.Text
