import CommandChain.Proofs.Selector.Grammar

/-!
How the reader goes over a text: the equations of its functions without the bounds on the places
they return, and the place where a run of characters of one kind ends.
-/
namespace CommandChain

namespace Text

/-- The ranges of two sets do not meet. -/
def apart (first second : List (Nat × Nat)) : Bool :=
  first.all fun (low, high) => second.all fun (low', high') => high < low' || high' < low

theorem inRanges_of_apart {first second : List (Nat × Nat)} (h : apart first second = true)
    {code : Nat} (inFirst : inRanges first code = true) : inRanges second code = false := by
  obtain ⟨range, member, bounds⟩ := (inRanges_eq_true_iff first code).1 inFirst
  refine Bool.eq_false_iff.2 fun inSecond => ?_
  obtain ⟨range', member', bounds'⟩ := (inRanges_eq_true_iff second code).1 inSecond
  have := List.all_eq_true.1 (List.all_eq_true.1 h range member) range' member'
  simp only [Bool.or_eq_true, decide_eq_true_eq] at this
  omega

theorem blankRanges_apart : apart blankRanges alphanumericRanges = true := by decide +kernel

theorem not_alphanumeric_of_blank {c : Char} (blank : isBlank c = true) :
    isAlphanumeric c = false :=
  inRanges_of_apart blankRanges_apart blank

end Text

namespace Selector

theorem ne_of_blank {c other : Char} (blank : Text.isBlank c = true)
    (notBlank : Text.isBlank other = false) : c ≠ other := by
  rintro rfl
  simp [blank] at notBlank

theorem not_namePart_of_blank {c : Char} (blank : Text.isBlank c = true) :
    isNamePart c = false := by
  have minus : c ≠ '-' := ne_of_blank blank (by decide)
  have underscore : c ≠ '_' := ne_of_blank blank (by decide)
  simp [isNamePart, Text.not_alphanumeric_of_blank blank, minus, underscore]

/-- The first ranges of `alphanumericRanges` are those of ASCII. -/
theorem alphanumeric_of_ascii {c : Char} (ascii : c.isAlphanum = true) :
    Text.isAlphanumeric c = true := by
  refine (Text.inRanges_eq_true_iff _ _).2 ?_
  change (decide (c.val ≥ 'A'.val ∧ c.val ≤ 'Z'.val) ||
    (decide (c.val ≥ 'a'.val) && decide (c.val ≤ 'z'.val)) ||
    (decide (c.val ≥ '0'.val) && decide (c.val ≤ '9'.val))) = true at ascii
  simp only [Bool.or_eq_true, Bool.and_eq_true, decide_eq_true_eq, ge_iff_le,
    UInt32.le_iff_toNat_le] at ascii
  obtain (upper | lower) | digit := ascii
  · exact ⟨(0x41, 0x5a), .tail _ (.head _), upper⟩
  · exact ⟨(0x61, 0x7a), .tail _ (.tail _ (.head _)), lower⟩
  · exact ⟨(0x30, 0x39), .head _, digit⟩

theorem alphanumeric_of_digit {c : Char} (digit : c.isDigit = true) :
    Text.isAlphanumeric c = true :=
  alphanumeric_of_ascii (by simp [Char.isAlphanum, digit])

theorem not_numberPart_of_blank {c : Char} (blank : Text.isBlank c = true) :
    isNumberPart c = false := by
  have point : c ≠ '.' := ne_of_blank blank (by decide)
  have digit : ¬ c.isDigit = true := fun digit => by
    simpa [Text.not_alphanumeric_of_blank blank] using alphanumeric_of_digit digit
  simp [isNumberPart, digit, point]

/-- Whether a text does not go on with a character of a kind. -/
def Ends (p : Char → Bool) (rest : List Char) : Prop := ∀ c ∈ rest.head?, p c = false

theorem Ends.takeWhile {p : Char → Bool} {rest : List Char} (ends : Ends p rest) :
    rest.takeWhile p = [] := by
  cases rest with
  | nil => rfl
  | cons c rest => exact List.takeWhile_cons_of_neg (by simp [ends c rfl])

theorem Ends.dropWhile {p : Char → Bool} {rest : List Char} (ends : Ends p rest) :
    rest.dropWhile p = rest := by
  cases rest with
  | nil => rfl
  | cons c rest => exact List.dropWhile_cons_of_neg (by simp [ends c rfl])

namespace Cursor

variable {p : Char → Bool} {chars rest : List Char}

theorem next_rest {c : Cursor} {char : Char} (shape : c.rest = char :: rest) :
    c.next.rest = rest := by
  simp [next, shape]

theorem run_append (c : Cursor) (p : Char → Bool) :
    c.rest = c.rest.takeWhile p ++ (c.skipWhile p).rest :=
  (List.takeWhile_append_dropWhile).symm

theorem skipWhile_ends (c : Cursor) (p : Char → Bool) : Ends p (c.skipWhile p).rest := by
  intro char first
  have ends := List.head?_dropWhile_not p c.rest
  rwa [show (c.rest.dropWhile p).head? = some char from first] at ends

theorem skipWhile_skipWhile (c : Cursor) (p : Char → Bool) :
    (c.skipWhile p).skipWhile p = c.skipWhile p := by
  have ends : Ends p (c.skipWhile p).rest := c.skipWhile_ends p
  have nothing : byteLength ((c.skipWhile p).rest.takeWhile p) = 0 := by
    rw [ends.takeWhile, byteLength]
  rw [skipWhile, nothing, ends.dropWhile, Nat.add_zero]

theorem run_of_ends {c : Cursor} (text : c.rest = chars ++ rest)
    (parts : ∀ char ∈ chars, p char = true) (ends : Ends p rest) :
    c.run p = String.ofList chars := by
  rw [run, text, List.takeWhile_append_of_pos parts, ends.takeWhile, List.append_nil]

theorem skipWhile_of_ends {c : Cursor} (text : c.rest = chars ++ rest)
    (parts : ∀ char ∈ chars, p char = true) (ends : Ends p rest) :
    (c.skipWhile p).rest = rest := by
  rw [skipWhile, text, List.dropWhile_append_of_pos parts, ends.dropWhile]

/-- What was read and where reading ended, without the bound on that place. -/
def bare {α : Type} {c : Cursor} : α × Option (Later c) → α × Option Cursor
  | (a, some d) => (a, some d.val)
  | (a, none) => (a, none)

@[simp] theorem bare_some {α : Type} {c : Cursor} (a : α) (d : Later c) :
    bare (a, some d) = (a, some d.val) := rfl

@[simp] theorem bare_none {α : Type} {c : Cursor} (a : α) :
    bare (a, (none : Option (Later c))) = (a, none) := rfl

theorem le_of_bare {α : Type} {c d : Cursor} {a : α} {reading : α × Option (Later c)}
    (eq : bare reading = (a, some d)) : d.rest.length ≤ c.rest.length := by
  rcases reading with ⟨a', _ | d'⟩
  · cases eq
  · cases eq
    exact d'.property

end Cursor

open Cursor

theorem bare_readSteps (c : Cursor) :
    bare (readSteps c) =
      if c.run isNamePart = "" then (⟨[], some (faultAt c "expected a path step")⟩, none)
      else match (c.skipWhile isNamePart).rest with
        | '/' :: _ =>
          let (steps, d) := bare (readSteps (c.skipWhile isNamePart).next)
          (⟨c.run isNamePart :: steps.names, steps.fault⟩, d)
        | _ => (⟨[c.run isNamePart], none⟩, some (c.skipWhile isNamePart)) := by
  rw [readSteps]
  by_cases empty : c.run isNamePart = ""
  · simp only [empty, if_true, bare_none]
  simp only [empty, if_false, past]
  split <;> rename_i shape
  · split <;> rename_i read <;> simp only [shape, read, bare_some, bare_none]
  · simp only [bare_some]

theorem bare_readMoreSteps (c : Cursor) :
    bare (readMoreSteps c) = match c.rest with
      | '/' :: _ => bare (readSteps c.next)
      | _ => (⟨[], none⟩, some c) := by
  unfold readMoreSteps
  split
  · split <;> simp_all
  · simp_all

theorem bare_readQuoted (quote : Char) (c : Cursor) :
    bare (readQuoted quote c) = match (c.skipWhile (· ≠ quote)).rest with
      | [] => (.broken (faultAt (c.skipWhile (· ≠ quote)) "unterminated string literal"), none)
      | _ => (.literal (.str (c.run (· ≠ quote))), some (c.skipWhile (· ≠ quote)).next) := by
  unfold readQuoted
  simp only [past]
  split <;> simp_all

/-- Where the digits of a number begin: past a minus sign. -/
def afterSign (c : Cursor) : String × Cursor :=
  match c.rest with
  | '-' :: _ => ("-", c.next)
  | _ => ("", c)

theorem bare_readNumber (c : Cursor) :
    bare (readNumber c) =
      let (sign, digits) := afterSign c
      match numberValue? (sign ++ digits.run isNumberPart) with
      | some value => (.literal value, some (digits.skipWhile isNumberPart))
      | none => (.broken (faultAt (digits.skipWhile isNumberPart) "malformed number"), none) := by
  unfold readNumber afterSign
  simp only [past]
  split <;> split <;> simp_all

/-- What is read where a name is due: a call, a word that stands for a value, or steps. -/
def readNamed (c : Cursor) : Expr × Option Cursor :=
  match readName c with
  | .error fault => (.broken fault, none)
  | .ok (name, afterName) =>
    let d := afterName.val.skipWhile Text.isBlank
    match d.rest with
    | '(' :: _ => Prod.map (.call name) id (bare (readArgs d.next))
    | _ =>
      match wordValue? name with
      | some value => (.literal value, some d)
      | none => Prod.map .subject id (bare (readSteps c))

theorem bare_readExpr (start : Cursor) :
    bare (readExpr start) =
      let c := start.skipWhile Text.isBlank
      match c.rest with
      | [] => (.broken (faultAt c "empty selector"), none)
      | char :: _ =>
        if char = '.' then Prod.map .subject id (bare (readMoreSteps c.next))
        else if char = '$' then
          match readName c.next with
          | .error fault => (.broken fault, none)
          | .ok (name, d) => Prod.map (.var name) id (bare (readMoreSteps d.val))
        else if char = '\'' ∨ char = '"' then bare (readQuoted char c.next)
        else if char.isDigit ∨ char = '-' then bare (readNumber c)
        else readNamed c := by
  rw [readExpr]
  simp only [pastBlanks, past]
  split <;> rename_i shape
  · simp only [shape, bare_none]
  simp only [shape]
  split
  · split <;> rename_i read <;> simp only [read, bare_some, bare_none, Prod.map, id]
  split
  · split <;> rename_i named <;> simp only [named, bare_none]
    split <;> rename_i read <;> simp only [read, bare_some, bare_none, Prod.map, id]
  split
  · split <;> rename_i read <;> simp only [read, bare_some, bare_none]
  split
  · split <;> rename_i read <;> simp only [read, bare_some, bare_none]
  unfold readNamed
  split
  · rename_i named
    simp only [named, bare_none]
  rename_i name afterName le named
  simp only [named]
  split <;> rename_i shape'
  · split <;> rename_i read <;> simp only [shape', read, bare_some, bare_none, Prod.map, id]
  cases wordValue? name with
  | some value => simp only [bare_some]
  | none =>
    simp only
    split <;> rename_i read <;> simp only [read, bare_some, bare_none, Prod.map, id]

theorem bare_readArgs (start : Cursor) :
    bare (readArgs start) =
      let c := start.skipWhile Text.isBlank
      match c.rest with
      | ')' :: _ => (.close, some c.next)
      | _ => bare (readMoreArgs c) := by
  rw [readArgs]
  simp only [pastBlanks, past]
  split
  · simp_all
  · split <;> simp_all

theorem bare_readMoreArgs (start : Cursor) :
    bare (readMoreArgs start) =
      match bare (readExpr start) with
      | (arg, none) => (.item arg .close, none)
      | (arg, some afterArg) =>
        let c := afterArg.skipWhile Text.isBlank
        match c.rest with
        | ')' :: _ => (.item arg .close, some c.next)
        | ',' :: _ => Prod.map (.item arg) id (bare (readMoreArgs c.next))
        | _ => (.item arg (.broken (faultAt c "expected ',' or ')'")), none) := by
  rw [readMoreArgs]
  simp only [pastBlanks, past]
  split <;> rename_i read <;> simp only [read, bare_some, bare_none]
  split <;> rename_i shape
  · simp only [shape, bare_some]
  · split <;> rename_i read' <;> simp only [shape, read', bare_some, bare_none, Prod.map, id]
  · split <;> simp_all

theorem bare_readMoreArgs_blanks (start : Cursor) :
    bare (readMoreArgs (start.skipWhile Text.isBlank)) = bare (readMoreArgs start) := by
  have same : bare (readExpr (start.skipWhile Text.isBlank)) = bare (readExpr start) := by
    rw [bare_readExpr, bare_readExpr, skipWhile_skipWhile]
  rw [bare_readMoreArgs, bare_readMoreArgs, same]

/-- No expression begins with a parenthesis, so where an argument is read there is none. -/
theorem bare_readArgs_more {start d : Cursor} {args : Args}
    (read : bare (readMoreArgs start) = (args, some d)) :
    bare (readArgs start) = (args, some d) := by
  rw [bare_readArgs]
  dsimp only
  split
  · rename_i shape
    have nameless : (start.skipWhile Text.isBlank).run isNamePart = "" := by
      have : isNamePart ')' = false := by decide +kernel
      simp [run, shape, this]
    obtain ⟨fault, named⟩ : ∃ fault,
        readNamed (start.skipWhile Text.isBlank) = (.broken fault, none) :=
      ⟨_, by simp [readNamed, readName, nameless]; rfl⟩
    rw [bare_readMoreArgs, bare_readExpr] at read
    simp [shape, named] at read
  · rw [bare_readMoreArgs_blanks, read]

end Selector
end CommandChain
