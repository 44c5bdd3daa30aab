import CommandChain.Number.Reading
import CommandChain.Selector.Cursor
import CommandChain.Selector.Expr
import CommandChain.Text.Alphanumeric
import CommandChain.Text.Blank

/-!
Reading the text of a selector:

    expr    := '.' ('/' step)*  |  '$' qname ('/' step)*  |  literal  |  call  |  step ('/' step)*
    call    := qname '(' [expr (',' expr)*] ')'
    literal := 'text'  |  "text"  |  number  |  true  |  false  |  null

Blanks may stand before an expression, before the parenthesis of a call and around its arguments.
Every function goes from a place in the text to a tree and, if it met no fault, to a later place.
-/
namespace CommandChain.Selector

open Cursor

def isNamePart (c : Char) : Bool := Text.isAlphanumeric c || c = '_' || c = '-'

def isNumberPart (c : Char) : Bool := c.isDigit || c = '.'

def pastBlanks (c : Cursor) : Later c := c.past Text.isBlank

def faultAt (c : Cursor) (reason : String) : Fault := ⟨c.offset, reason⟩

def readSteps (c : Cursor) : Steps × Option (Later c) :=
  if c.run isNamePart = "" then (⟨[], some (faultAt c "expected a path step")⟩, none)
  else
    let ⟨d, short⟩ := c.past isNamePart
    match shape : d.rest with
    | '/' :: _ =>
      have shorter := next_length_lt shape
      match readSteps d.next with
      | (steps, some ⟨e, le⟩) =>
        (⟨c.run isNamePart :: steps.names, steps.fault⟩, some ⟨e, by omega⟩)
      | (steps, none) => (⟨c.run isNamePart :: steps.names, steps.fault⟩, none)
    | _ => (⟨[c.run isNamePart], none⟩, some ⟨d, short⟩)
termination_by c.rest.length

/-- The steps after a value: none, unless a slash follows it. -/
def readMoreSteps (c : Cursor) : Steps × Option (Later c) :=
  match c.rest with
  | '/' :: _ =>
    match readSteps c.next with
    | (steps, some ⟨e, le⟩) => (steps, some ⟨e, Nat.le_trans le c.next_length_le⟩)
    | (steps, none) => (steps, none)
  | _ => (⟨[], none⟩, some ⟨c, Nat.le_refl _⟩)

/-- A name, or two with a colon between them. -/
def readName (c : Cursor) : Except Fault (String × Later c) :=
  let ⟨d, short⟩ := c.past isNamePart
  if c.run isNamePart = "" then .error (faultAt d "expected a name")
  else match d.rest with
    | ':' :: _ =>
      let ⟨e, le⟩ := d.next.past isNamePart
      have shorter := Nat.le_trans le (Nat.le_trans d.next_length_le short)
      if d.next.run isNamePart = "" then .error (faultAt e "expected a local name after ':'")
      else .ok (c.run isNamePart ++ ":" ++ d.next.run isNamePart, ⟨e, shorter⟩)
    | _ => .ok (c.run isNamePart, ⟨d, short⟩)

def readQuoted (quote : Char) (c : Cursor) : Expr × Option (Later c) :=
  let ⟨d, short⟩ := c.past (· ≠ quote)
  match d.rest with
  | [] => (.broken (faultAt d "unterminated string literal"), none)
  | _ => (.literal (.str (c.run (· ≠ quote))), some ⟨d.next, Nat.le_trans d.next_length_le short⟩)

/-- The value of a number's text: whole if it can be, else binary. -/
def numberValue? (text : String) : Option Value :=
  match readInt64? text with
  | some i => some (.int i)
  | none => (Binary64.read? text).map .float

/-- A minus sign, if there is one, and the digits and points after it. -/
def readNumber (c : Cursor) : Expr × Option (Later c) :=
  let (sign, ⟨afterSign, le⟩) : String × Later c := match c.rest with
    | '-' :: _ => ("-", ⟨c.next, c.next_length_le⟩)
    | _ => ("", ⟨c, Nat.le_refl _⟩)
  let ⟨d, short⟩ := afterSign.past isNumberPart
  match numberValue? (sign ++ afterSign.run isNumberPart) with
  | some value => (.literal value, some ⟨d, Nat.le_trans short le⟩)
  | none => (.broken (faultAt d "malformed number"), none)

def wordValue? : String → Option Value
  | "true" => some (.bool true)
  | "false" => some (.bool false)
  | "null" => some .null
  | _ => none

mutual

def readExpr (start : Cursor) : Expr × Option (Later start) :=
  let ⟨c, blanks⟩ := pastBlanks start
  match shape : c.rest with
  | [] => (.broken (faultAt c "empty selector"), none)
  | char :: _ =>
    have shorter := next_length_lt shape
    if char = '.' then
      match readMoreSteps c.next with
      | (steps, some ⟨d, le⟩) => (.subject steps, some ⟨d, by omega⟩)
      | (steps, none) => (.subject steps, none)
    else if char = '$' then
      match readName c.next with
      | .error fault => (.broken fault, none)
      | .ok (name, ⟨d, le⟩) =>
        match readMoreSteps d with
        | (steps, some ⟨e, le'⟩) => (.var name steps, some ⟨e, by omega⟩)
        | (steps, none) => (.var name steps, none)
    else if char = '\'' ∨ char = '"' then
      match readQuoted char c.next with
      | (expr, some ⟨d, le⟩) => (expr, some ⟨d, by omega⟩)
      | (expr, none) => (expr, none)
    else if char.isDigit ∨ char = '-' then
      match readNumber c with
      | (expr, some ⟨d, le⟩) => (expr, some ⟨d, by omega⟩)
      | (expr, none) => (expr, none)
    else
      match readName c with
      | .error fault => (.broken fault, none)
      | .ok (name, ⟨afterName, le⟩) =>
        let ⟨d, blanks'⟩ := pastBlanks afterName
        match shape' : d.rest with
        | '(' :: _ =>
          have shorter' := next_length_lt shape'
          match readArgs d.next with
          | (args, some ⟨e, le'⟩) => (.call name args, some ⟨e, by omega⟩)
          | (args, none) => (.call name args, none)
        | _ =>
          match wordValue? name with
          | some value => (.literal value, some ⟨d, by omega⟩)
          | none =>
            match readSteps c with
            | (steps, some ⟨e, le'⟩) => (.subject steps, some ⟨e, by omega⟩)
            | (steps, none) => (.subject steps, none)
termination_by 3 * start.rest.length

def readArgs (start : Cursor) : Args × Option (Later start) :=
  let ⟨c, blanks⟩ := pastBlanks start
  match c.rest with
  | ')' :: _ => (.close, some ⟨c.next, Nat.le_trans c.next_length_le blanks⟩)
  | _ =>
    match readMoreArgs c with
    | (args, some ⟨d, le⟩) => (args, some ⟨d, Nat.le_trans le blanks⟩)
    | (args, none) => (args, none)
termination_by 3 * start.rest.length + 2

def readMoreArgs (start : Cursor) : Args × Option (Later start) :=
  match readExpr start with
  | (arg, none) => (.item arg .close, none)
  | (arg, some ⟨afterArg, le⟩) =>
    let ⟨c, blanks⟩ := pastBlanks afterArg
    match shape : c.rest with
    | ')' :: _ => (.item arg .close, some ⟨c.next, Nat.le_trans c.next_length_le (by omega)⟩)
    | ',' :: _ =>
      have shorter := next_length_lt shape
      match readMoreArgs c.next with
      | (args, some ⟨d, le'⟩) => (.item arg args, some ⟨d, by omega⟩)
      | (args, none) => (.item arg args, none)
    | _ => (.item arg (.broken (faultAt c "expected ',' or ')'")), none)
termination_by 3 * start.rest.length + 1

end

def read (text : String) : Reading :=
  match readExpr (.start text) with
  | (expr, none) => ⟨expr, none⟩
  | (expr, some ⟨d, _⟩) =>
    let ⟨c, _⟩ := pastBlanks d
    ⟨expr, if c.rest = [] then none else some (faultAt c "unexpected trailing input")⟩

end CommandChain.Selector
