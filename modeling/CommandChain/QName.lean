import CommandChain.Text.Quoted

/-!
Qualified names: a local part, in a namespace or in none. Their text has three forms: the namespace
in braces before the local part, a prefix and a colon before it, or the local part alone.
-/
namespace CommandChain

structure QName where
  namespaceUri : Option String
  localName : String
  deriving DecidableEq, Repr, Inhabited

inductive QNameError where
  | unknownPrefix (name : String)
  | malformed (text : String)
  deriving DecidableEq, Repr

namespace QNameError

def code : QNameError → String
  | .unknownPrefix _ => "UnknownPrefix"
  | .malformed _ => "Malformed"

def message : QNameError → String
  | .unknownPrefix name => "could not find uri for prefix '" ++ name ++ "'"
  | .malformed text => "could not parse the qname '" ++ text ++ "'"

end QNameError

namespace QName

def plain (localName : String) : QName := ⟨none, localName⟩

/-- The empty uri stands for no namespace. -/
def qualified (uri localName : String) : QName :=
  ⟨if uri = "" then none else some uri, localName⟩

def text (name : QName) : String :=
  match name.namespaceUri with
  | some uri => "\x7b" ++ uri ++ "\x7d" ++ name.localName
  | none => name.localName

def debugText (name : QName) : String :=
  Text.record "QName" [
    ("namespace", Text.optional (name.namespaceUri.map Text.quoted)),
    ("local", Text.quoted name.localName)]

/-- Splits after the last closing brace that something follows and no opening brace precedes. -/
def splitLastBrace : List Char → Option (List Char × List Char)
  | [] => none
  | c :: rest =>
    if c = '{' then none
    else match splitLastBrace rest with
      | some (before, after) => some (c :: before, after)
      | none => if c = '}' ∧ rest ≠ [] then some ([], rest) else none

/-- The braced form: an opening brace, a uri without one, a closing brace, and a local part that
ends the text on the same line. -/
def splitUri : List Char → Option (List Char × List Char)
  | '{' :: rest =>
    match splitLastBrace rest with
    | some (uri, localPart) => if '\n' ∈ localPart then none else some (uri, localPart)
    | none => none
  | _ => none

def splitColon : List Char → Option (List Char × List Char)
  | [] => none
  | c :: rest =>
    if c = ':' then some ([], rest)
    else (splitColon rest).map fun (before, after) => (c :: before, after)

/-- Reads the text of a name. A prefix is looked up with `resolve`. -/
def parse (text : String) (resolve : String → Option String) : Except QNameError QName :=
  match splitUri text.toList with
  | some (uri, localPart) => .ok (qualified (String.ofList uri) (String.ofList localPart))
  | none =>
    match splitColon text.toList with
    | some (before, after) =>
      if after = [] ∨ ':' ∈ after then .error (.malformed text)
      else match resolve (String.ofList before) with
        | some uri => .ok (qualified uri (String.ofList after))
        | none => .error (.unknownPrefix (String.ofList before))
    | none => if text = "" then .error (.malformed text) else .ok (plain text)

/-- Names in no namespace come first, then by namespace, then by local part. -/
def lt (a b : QName) : Bool :=
  match a.namespaceUri, b.namespaceUri with
  | none, some _ => true
  | some _, none => false
  | none, none => a.localName < b.localName
  | some u, some v => u < v || (u = v && a.localName < b.localName)

def sort (names : List QName) : List QName := names.mergeSort fun a b => !lt b a

end QName
end CommandChain
