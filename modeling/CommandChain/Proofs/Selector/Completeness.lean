import CommandChain.Proofs.Selector.Reading

/-!
Every text of a tree is read, to its end and as that tree. What is read is an expression that has
the meaning of the tree.
-/
namespace CommandChain.Selector

open Cursor

theorem Blank.nil : Blank [] := by
  rintro _ ⟨⟩

/-- What may follow an expression: nothing, or what ends an argument. -/
def Stops (rest : List Char) : Prop := ∀ c ∈ rest.head?, c = ',' ∨ c = ')'

theorem Ends.cons {p : Char → Bool} {c : Char} (apart : p c = false) (rest : List Char) :
    Ends p (c :: rest) := by
  rintro _ ⟨⟩
  exact apart

theorem Blank.ends {p : Char → Bool} {gap rest : List Char} (blank : Blank gap)
    (onBlank : ∀ c, Text.isBlank c = true → p c = false) (ends : Ends p rest) :
    Ends p (gap ++ rest) := by
  cases gap with
  | nil => exact ends
  | cons c gap => exact .cons (onBlank c (blank c (.head _))) _

theorem Stops.ends {p : Char → Bool} {after rest : List Char} (stops : Stops rest)
    (blank : Blank after) (onBlank : ∀ c, Text.isBlank c = true → p c = false)
    (comma : p ',' = false) (parenthesis : p ')' = false) : Ends p (after ++ rest) := by
  refine blank.ends onBlank fun c first => ?_
  obtain rfl | rfl := stops c first
  · exact comma
  · exact parenthesis

theorem Stops.ends_names {after rest : List Char} (stops : Stops rest) (blank : Blank after) :
    Ends isNamePart (after ++ rest) :=
  stops.ends blank (fun _ => not_namePart_of_blank) (by decide +kernel) (by decide +kernel)

theorem Stops.ends_at {after rest : List Char} (stops : Stops rest) (blank : Blank after)
    (char : Char) (notBlank : Text.isBlank char = false) (comma : char ≠ ',')
    (parenthesis : char ≠ ')') : Ends (· = char) (after ++ rest) :=
  stops.ends blank (fun c blank => by simpa using ne_of_blank blank notBlank)
    (by simpa using comma.symm) (by simpa using parenthesis.symm)

namespace Name

theorem notBlank {name : Name} {c : Char} (member : c ∈ name.chars) : Text.isBlank c = false := by
  refine Bool.eq_false_iff.2 fun blank => ?_
  simpa [not_namePart_of_blank blank] using name.parts c member

theorem text_ne (name : Name) : name.text ≠ "" := by
  intro empty
  exact name.nonempty (by simpa [text] using congrArg String.toList empty)

/-- A word of ASCII letters and digits is a name. -/
def ascii (word : String) (nonempty : word.toList ≠ [])
    (parts : word.toList.all Char.isAlphanum = true) : Name where
  chars := word.toList
  nonempty
  parts c member := by
    simp [isNamePart, alphanumeric_of_ascii (List.all_eq_true.1 parts c member)]

theorem run {name : Name} {c : Cursor} {rest : List Char} (text : c.rest = name.chars ++ rest)
    (ends : Ends isNamePart rest) :
    c.run isNamePart = name.text ∧ (c.skipWhile isNamePart).rest = rest :=
  ⟨run_of_ends text name.parts ends, skipWhile_of_ends text name.parts ends⟩

end Name

theorem stepsChars_ends {steps : List Name} {p : Char → Bool} {rest : List Char}
    (slash : p '/' = false) (ends : Ends p rest) : Ends p (stepsChars steps ++ rest) := by
  cases steps with
  | nil => exact ends
  | cons step steps => exact .cons slash _

def stepsOf (steps : List Name) : Steps := ⟨steps.map Name.text, none⟩

section

variable {rest : List Char} (ends : Ends isNamePart rest) (slashless : Ends (· = '/') rest)
include ends slashless

theorem readSteps_rendered (first : Name) (steps : List Name) (c : Cursor)
    (text : c.rest = first.chars ++ (stepsChars steps ++ rest)) :
    ∃ d : Cursor, bare (readSteps c) = (stepsOf (first :: steps), some d) ∧ d.rest = rest := by
  have slash : isNamePart '/' = false := by decide +kernel
  obtain ⟨run, after⟩ := first.run text (stepsChars_ends slash ends)
  rw [bare_readSteps, run, if_neg first.text_ne]
  induction steps generalizing first c with
  | nil =>
    refine ⟨c.skipWhile isNamePart, ?_, after⟩
    split
    · rename_i shape
      rw [after] at shape
      simpa using slashless '/' (by simp_all [stepsChars])
    · rfl
  | cons step steps ih =>
    have next := next_rest after
    obtain ⟨run', after'⟩ := step.run (next.trans (List.append_assoc _ _ _))
      (stepsChars_ends slash ends)
    obtain ⟨d, read, place⟩ := ih step _ (next.trans (List.append_assoc _ _ _)) run' after'
    refine ⟨d, ?_, place⟩
    rw [after]
    dsimp only [stepsChars, List.flatMap_cons, List.cons_append]
    rw [bare_readSteps, run', if_neg step.text_ne, read]
    rfl

theorem readMoreSteps_rendered (steps : List Name) (c : Cursor)
    (text : c.rest = stepsChars steps ++ rest) :
    ∃ d : Cursor, bare (readMoreSteps c) = (stepsOf steps, some d) ∧ d.rest = rest := by
  rw [bare_readMoreSteps]
  cases steps with
  | nil =>
    refine ⟨c, ?_, text⟩
    split
    · rename_i shape
      rw [text] at shape
      simpa using slashless '/' (by simp_all [stepsChars])
    · rfl
  | cons step steps =>
    rw [text]
    exact readSteps_rendered ends slashless step steps c.next
      ((next_rest text).trans (List.append_assoc _ _ _))

omit slashless in
theorem readName_rendered (colonless : Ends (· = ':') rest) (name : QualifiedName) (c : Cursor)
    (text : c.rest = name.chars ++ rest) :
    ∃ d : Later c, readName c = .ok (name.text, d) ∧ d.val.rest = rest := by
  have colon : isNamePart ':' = false := by decide +kernel
  unfold readName
  simp only [past]
  cases name with
  | plain name =>
    obtain ⟨run, after⟩ := name.run text ends
    rw [run, if_neg name.text_ne]
    split
    · rename_i shape
      rw [after] at shape
      simpa using colonless ':' (by simp [shape])
    · exact ⟨_, rfl, after⟩
  | prefixed space name =>
    obtain ⟨run, after⟩ := space.run (text.trans (List.append_assoc _ _ _)) (.cons colon _)
    obtain ⟨run', after'⟩ := name.run (next_rest after) ends
    rw [run, if_neg space.text_ne]
    split
    · simp only [run', name.text_ne, if_false]
      exact ⟨_, by rw [QualifiedName.text_prefixed], after'⟩
    · rename_i shape
      exact absurd after (shape _)

end

def Leaf.expr : Leaf → Expr
  | .subject steps => .subject (stepsOf steps)
  | .var name steps => .var name.text (stepsOf steps)
  | .quoted _ text _ => .literal (.str (String.ofList text))
  | .number _ value _ => .literal value
  | .bool b => .literal (.bool b)
  | .null => .literal .null
  | .path first steps _ _ => .subject (stepsOf (first :: steps))

mutual

def Tree.expr : Tree → Expr
  | .atom leaf => leaf.expr
  | .call name _ args => .call name.text (Tree.exprs args)

def Tree.exprs : List Tree → Args
  | [] => .close
  | arg :: rest => .item arg.expr (Tree.exprs rest)

end

section

variable {σ : Type} (text : String) (subject : Value) (env : Environment σ)

theorem navigateAll_eq (value : Value) (steps : List Name) :
    (match navigateAll value (steps.map Name.text) with
      | .ok found => pure found
      | .error error => throw error : Evaluation σ Value) = descend value steps := by
  induction steps generalizing value with
  | nil => rfl
  | cons step steps ih =>
    rw [descend, List.foldlM_cons, List.map_cons, navigateAll]
    cases navigate value step.text with
    | ok found => exact ih found
    | error error => rfl

theorem follow_stepsOf (value : Value) (steps : List Name) :
    (follow text value (stepsOf steps) : Evaluation σ Value) = descend value steps := by
  rw [← navigateAll_eq, follow, stepsOf]
  cases navigateAll value (steps.map Name.text) <;> rfl

theorem Leaf.evaluate_expr (leaf : Leaf) :
    leaf.expr.evaluate text subject env = leaf.meaning subject env := by
  cases leaf with
  | var name steps =>
    unfold Leaf.expr Leaf.meaning Expr.evaluate
    refine congrArg (env.valueOf name.text >>= ·) (funext fun found => ?_)
    cases found with
    | some value => exact follow_stepsOf text value steps
    | none => rfl
  | _ => simp only [Leaf.expr, Leaf.meaning, Expr.evaluate, follow_stepsOf]

mutual

/-- What is read of a tree has the tree's meaning. -/
theorem Tree.evaluate_expr (tree : Tree) :
    tree.expr.evaluate text subject env = tree.meaning subject env := by
  cases tree with
  | atom leaf => simp only [Tree.expr, Tree.meaning, leaf.evaluate_expr]
  | call name leads args =>
    simp only [Tree.expr, Tree.meaning, Expr.evaluate, Tree.evaluate_exprs args]

theorem Tree.evaluate_exprs (args : List Tree) :
    (Tree.exprs args).evaluate text subject env = Tree.meanings subject env args := by
  cases args with
  | nil => rfl
  | cons arg rest =>
    simp only [Tree.exprs, Tree.meanings, Args.evaluate, arg.evaluate_expr,
      Tree.evaluate_exprs rest]

end

end

theorem Stops.skipBlanks {after rest : List Char} {d : Cursor} (stops : Stops rest)
    (blank : Blank after) (text : d.rest = after ++ rest) :
    (d.skipWhile Text.isBlank).rest = rest := by
  refine skipWhile_of_ends text blank fun c first => ?_
  obtain rfl | rfl := stops c first <;> decide

theorem Name.head (name : Name) (rest : List Char) :
    ∃ (c : Char) (more : List Char), name.chars ++ rest = c :: more ∧ c ∈ name.chars.head? := by
  obtain ⟨c, more, eq⟩ := List.exists_cons_of_ne_nil name.nonempty
  exact ⟨c, more ++ rest, by rw [eq, List.cons_append], by rw [eq]; rfl⟩

theorem QualifiedName.head (name : QualifiedName) (rest : List Char) :
    ∃ more : List Char, name.chars ++ rest = name.first.chars ++ more := by
  cases name with
  | plain name => exact ⟨rest, rfl⟩
  | prefixed space name => exact ⟨':' :: (name.chars ++ rest), List.append_assoc _ _ _⟩

theorem bare_readExpr_named (name : Name) {start : Cursor} {before rest : List Char}
    (leads : name.Leads) (blank : Blank before)
    (text : start.rest = before ++ (name.chars ++ rest)) :
    bare (readExpr start) = readNamed (start.skipWhile Text.isBlank) ∧
      (start.skipWhile Text.isBlank).rest = name.chars ++ rest := by
  obtain ⟨c, more, shape, first⟩ := name.head rest
  have member := List.mem_of_mem_head? first
  have part := name.parts c member
  have ne {other : Char} (apart : isNamePart other = false) : c ≠ other := by
    rintro rfl
    simp [part] at apart
  have place : (start.skipWhile Text.isBlank).rest = name.chars ++ rest := by
    refine skipWhile_of_ends text blank ?_
    rw [shape]
    exact .cons (Name.notBlank member) _
  obtain ⟨digit, minus⟩ := leads c first
  refine ⟨?_, place⟩
  rw [bare_readExpr]
  simp only [place, shape]
  rw [if_neg (ne (by decide +kernel)), if_neg (ne (by decide +kernel)),
    if_neg (not_or.2 ⟨ne (by decide +kernel), ne (by decide +kernel)⟩),
    if_neg (by simp [digit, minus])]

theorem Numeral.head (numeral : Numeral) :
    ∃ (c : Char) (more : List Char), numeral.chars = c :: more ∧ (c.isDigit = true ∨ c = '-') := by
  unfold Numeral.chars
  cases sign : numeral.negative with
  | true => exact ⟨'-', numeral.digits, rfl, .inr rfl⟩
  | false =>
    obtain negative | ⟨digit, first, isDigit⟩ := numeral.opens
    · simp [negative] at sign
    · obtain ⟨more, eq⟩ := List.head?_eq_some_iff.1 first
      exact ⟨digit, more, eq, .inl isDigit⟩

theorem Numeral.numberValue {numeral : Numeral} {value : Value} (denotes : numeral.Denotes value) :
    numberValue? numeral.text = some value := by
  cases denotes with
  | whole reads => simp [numberValue?, reads]
  | binary broken reads => simp [numberValue?, broken, reads]

theorem readNumber_rendered {numeral : Numeral} {value : Value} {c : Cursor} {rest : List Char}
    (denotes : numeral.Denotes value) (text : c.rest = numeral.chars ++ rest)
    (ends : Ends isNumberPart rest) :
    ∃ d : Cursor, bare (readNumber c) = (.literal value, some d) ∧ d.rest = rest := by
  have digits : ∃ sign digits, afterSign c = (sign, digits) ∧
      digits.rest = numeral.digits ++ rest ∧
      sign ++ String.ofList numeral.digits = numeral.text := by
    unfold afterSign Numeral.text
    rw [text, Numeral.chars]
    cases sign : numeral.negative with
    | true =>
      have minus : c.rest = '-' :: (numeral.digits ++ rest) := by simp [text, Numeral.chars, sign]
      exact ⟨_, _, rfl, next_rest minus, by simp⟩
    | false =>
      refine ⟨"", c, ?_, by simp [text, Numeral.chars, sign], by simp⟩
      obtain negative | ⟨digit, first, isDigit⟩ := numeral.opens
      · simp [negative] at sign
      obtain ⟨more, eq⟩ := List.head?_eq_some_iff.1 first
      have : digit ≠ '-' := by
        rintro rfl
        simp at isDigit
      simp [eq, this]
  obtain ⟨sign, digits, signed, place, whole⟩ := digits
  rw [bare_readNumber]
  refine ⟨digits.skipWhile isNumberPart, ?_, skipWhile_of_ends place numeral.parts ends⟩
  simp [signed, run_of_ends place numeral.parts ends, whole, Numeral.numberValue denotes]

theorem Leaf.ends_blank (leaf : Leaf) (rest : List Char) :
    Ends Text.isBlank (leaf.chars ++ rest) := by
  have ofName (name : Name) (rest : List Char) : Ends Text.isBlank (name.chars ++ rest) := by
    obtain ⟨c, more, shape, first⟩ := name.head rest
    rw [shape]
    exact .cons (Name.notBlank (List.mem_of_mem_head? first)) _
  cases leaf with
  | subject steps => exact .cons (by decide) _
  | var name steps => exact .cons (by decide) _
  | quoted quote text apart => cases quote <;> exact .cons (by decide) _
  | number numeral value denotes =>
    obtain ⟨c, more, shape, opens⟩ := numeral.head
    change Ends Text.isBlank (numeral.chars ++ rest)
    rw [shape]
    refine .cons (Bool.eq_false_iff.2 fun blank => ?_) _
    obtain digit | rfl := opens
    · simpa [Text.not_alphanumeric_of_blank blank] using alphanumeric_of_digit digit
    · exact absurd blank (by decide)
  | bool b => cases b <;> exact .cons (by decide) _
  | null => exact .cons (by decide) _
  | path first steps leads apart =>
    change Ends Text.isBlank (first.chars ++ stepsChars steps ++ rest)
    rw [List.append_assoc]
    exact ofName first _

theorem readNamed_plain {name : Name} {c : Cursor} {rest : List Char}
    (text : c.rest = name.chars ++ rest) (ends : Ends isNamePart rest)
    (colonless : Ends (· = ':') rest) :
    ∃ after : Cursor, after.rest = rest ∧
      (Ends (· = '(') (after.skipWhile Text.isBlank).rest →
        readNamed c = match wordValue? name.text with
          | some value => (.literal value, some (after.skipWhile Text.isBlank))
          | none => Prod.map .subject id (bare (readSteps c))) := by
  obtain ⟨d, read, place⟩ := readName_rendered ends colonless (.plain name) c text
  refine ⟨d, place, fun apart => ?_⟩
  rw [readNamed, read]
  dsimp only
  split
  · rename_i shape
    simpa using apart '(' (by simp [shape])
  · rfl

theorem wordValue?_eq_none {word : String} (apart : word ∉ ["true", "false", "null"]) :
    wordValue? word = none := by
  unfold wordValue?
  split <;> simp_all

section

variable {start : Cursor} {before after rest : List Char} (blank : Blank before)
  (blank' : Blank after) (stops : Stops rest)
include blank blank' stops

theorem readExpr_word (name : Name) {value : Value} (word : wordValue? name.text = some value)
    (leads : name.Leads) (text : start.rest = before ++ (name.chars ++ (after ++ rest))) :
    ∃ d : Cursor, bare (readExpr start) = (.literal value, some d) ∧
      (d.skipWhile Text.isBlank).rest = rest := by
  obtain ⟨named, place⟩ := bare_readExpr_named name leads blank text
  obtain ⟨d, place', read⟩ := readNamed_plain place (stops.ends_names blank')
    (stops.ends_at blank' ':' (by decide) (by decide) (by decide))
  have place'' := stops.skipBlanks blank' place'
  have apart := stops.ends_at .nil '(' (by decide) (by decide) (by decide)
  rw [named, read (place'' ▸ apart), word]
  exact ⟨_, rfl, stops.skipBlanks .nil place''⟩

theorem readExpr_path (first : Name) (steps : List Name) (leads : first.Leads)
    (apart : first.text ∉ ["true", "false", "null"])
    (text : start.rest = before ++ (first.chars ++ (stepsChars steps ++ (after ++ rest)))) :
    ∃ d : Cursor, bare (readExpr start) = (.subject (stepsOf (first :: steps)), some d) ∧
      (d.skipWhile Text.isBlank).rest = rest := by
  have names := stops.ends_names blank'
  have slashless := stops.ends_at blank' '/' (by decide) (by decide) (by decide)
  have colonless := stops.ends_at blank' ':' (by decide) (by decide) (by decide)
  obtain ⟨named, place⟩ := bare_readExpr_named first leads blank text
  obtain ⟨d, place', read⟩ := readNamed_plain place (stepsChars_ends (by decide +kernel) names)
    (stepsChars_ends (by decide) colonless)
  have parenless : Ends (· = '(') (d.skipWhile Text.isBlank).rest := by
    cases steps with
    | nil =>
      rw [stops.skipBlanks blank' place']
      exact stops.ends_at .nil '(' (by decide) (by decide) (by decide)
    | cons step steps =>
      have slash : Ends Text.isBlank d.rest := place' ▸ .cons (by decide) _
      rw [skipWhile_of_ends (List.nil_append _).symm Blank.nil slash, place']
      exact .cons (by decide) _
  obtain ⟨e, read', place''⟩ := readSteps_rendered names slashless first steps _ place
  rw [named, read parenless, wordValue?_eq_none apart, read']
  exact ⟨e, rfl, stops.skipBlanks blank' place''⟩

omit blank in
theorem readExpr_quoted (quote : Quote) (inside : List Char) (apart : quote.char ∉ inside)
    (place : (start.skipWhile Text.isBlank).rest =
      quote.char :: (inside ++ (quote.char :: (after ++ rest)))) :
    ∃ d : Cursor, bare (readExpr start) = (.literal (.str (String.ofList inside)), some d) ∧
      (d.skipWhile Text.isBlank).rest = rest := by
  have parts : ∀ c ∈ inside, decide (c ≠ quote.char) = true := fun c member =>
    decide_eq_true fun same => apart (same ▸ member)
  have ends : Ends (fun c => decide (c ≠ quote.char)) (quote.char :: (after ++ rest)) :=
    .cons (by simp) _
  have run := run_of_ends (next_rest place) parts ends
  have closing := skipWhile_of_ends (next_rest place) parts ends
  have opening : quote.char ≠ '.' ∧ quote.char ≠ '$' ∧
      (quote.char = '\'' ∨ quote.char = '"') := by
    cases quote <;> decide
  rw [bare_readExpr]
  simp only [place, opening, if_true, if_false, bare_readQuoted, closing, run]
  exact ⟨_, rfl, stops.skipBlanks blank' (next_rest closing)⟩

omit blank in
theorem readExpr_numeral {numeral : Numeral} {value : Value} (denotes : numeral.Denotes value)
    (place : (start.skipWhile Text.isBlank).rest = numeral.chars ++ (after ++ rest)) :
    ∃ d : Cursor, bare (readExpr start) = (.literal value, some d) ∧
      (d.skipWhile Text.isBlank).rest = rest := by
  obtain ⟨c, more, shape, opens⟩ := numeral.head
  obtain ⟨d, read, place'⟩ := readNumber_rendered denotes place
    (stops.ends blank' (fun _ => not_numberPart_of_blank) (by decide) (by decide))
  have ne {other : Char} (apart : ¬ (other.isDigit = true ∨ other = '-')) : c ≠ other := by
    rintro rfl
    exact apart opens
  rw [shape, List.cons_append] at place
  rw [bare_readExpr]
  simp only [place]
  rw [if_neg (ne (by decide)), if_neg (ne (by decide)),
    if_neg (not_or.2 ⟨ne (by decide), ne (by decide)⟩), if_pos opens]
  exact ⟨d, read, stops.skipBlanks blank' place'⟩

theorem Leaf.read_rendered (leaf : Leaf)
    (text : start.rest = before ++ (leaf.chars ++ (after ++ rest))) :
    ∃ d : Cursor, bare (readExpr start) = (leaf.expr, some d) ∧
      (d.skipWhile Text.isBlank).rest = rest := by
  have place : (start.skipWhile Text.isBlank).rest = leaf.chars ++ (after ++ rest) :=
    skipWhile_of_ends text blank (leaf.ends_blank _)
  have names := stops.ends_names blank'
  have slashless := stops.ends_at blank' '/' (by decide) (by decide) (by decide)
  have colonless := stops.ends_at blank' ':' (by decide) (by decide) (by decide)
  cases leaf with
  | subject steps =>
    rw [bare_readExpr]
    rw [Leaf.chars, List.cons_append] at place
    obtain ⟨d, read, place'⟩ := readMoreSteps_rendered names slashless steps _ (next_rest place)
    simp only [place, if_true, read]
    exact ⟨d, rfl, stops.skipBlanks blank' place'⟩
  | var name steps =>
    rw [bare_readExpr]
    rw [Leaf.chars, List.cons_append, List.append_assoc] at place
    obtain ⟨d, read, place'⟩ := readName_rendered (stepsChars_ends (by decide +kernel) names)
      (stepsChars_ends (by decide) colonless) name _ (next_rest place)
    obtain ⟨e, read', place''⟩ := readMoreSteps_rendered names slashless steps _ place'
    simp only [place, read, read']
    exact ⟨e, rfl, stops.skipBlanks blank' place''⟩
  | quoted quote inside apart =>
    rw [Leaf.chars, List.cons_append, List.append_assoc] at place
    exact readExpr_quoted blank' stops quote inside apart place
  | number numeral value denotes => exact readExpr_numeral blank' stops denotes place
  | bool b =>
    cases b with
    | true =>
      exact readExpr_word blank blank' stops (.ascii "true" (by decide) (by decide)) rfl
        (by simp [Name.Leads, Name.ascii]) text
    | false =>
      exact readExpr_word blank blank' stops (.ascii "false" (by decide) (by decide)) rfl
        (by simp [Name.Leads, Name.ascii]) text
  | null =>
    exact readExpr_word blank blank' stops (.ascii "null" (by decide) (by decide)) rfl
      (by simp [Name.Leads, Name.ascii]) text
  | path first steps leads apart =>
    rw [Leaf.chars, List.append_assoc] at text
    exact readExpr_path blank blank' stops first steps leads apart text

end

theorem Stops.cons {c : Char} (stop : c = ',' ∨ c = ')') (rest : List Char) :
    Stops (c :: rest) := by
  rintro _ ⟨⟩
  exact stop

theorem readArgs_rendered {args : List Tree} {text rest : List Char} {start : Cursor}
    (renders : Tree.RendersAll args text) (place : start.rest = text ++ ')' :: rest)
    (more : args ≠ [] → ∃ d : Cursor,
      bare (readMoreArgs start) = (Tree.exprs args, some d) ∧ d.rest = rest) :
    ∃ d : Cursor, bare (readArgs start) = (Tree.exprs args, some d) ∧ d.rest = rest := by
  cases args with
  | nil =>
    obtain ⟨blank⟩ := renders
    have shape : (start.skipWhile Text.isBlank).rest = ')' :: rest :=
      skipWhile_of_ends place blank (.cons (by decide) _)
    rw [bare_readArgs]
    simp only [shape]
    exact ⟨_, rfl, next_rest shape⟩
  | cons arg others =>
    obtain ⟨d, read, place'⟩ := more (List.cons_ne_nil _ _)
    exact ⟨d, bare_readArgs_more read, place'⟩

mutual

/-- Every text of a tree is read as the tree, up to what follows it. -/
theorem Tree.read_rendered (tree : Tree) {text rest : List Char} {start : Cursor}
    (renders : tree.Renders text) (stops : Stops rest) (place : start.rest = text ++ rest) :
    ∃ d : Cursor, bare (readExpr start) = (tree.expr, some d) ∧
      (d.skipWhile Text.isBlank).rest = rest := by
  cases renders with
  | atom blank blank' =>
    rename_i leaf before after
    simp only [List.append_assoc] at place
    exact Leaf.read_rendered blank blank' stops leaf place
  | call blank blankGap within blank' =>
    rename_i name leads args before gap inner after
    simp only [List.append_assoc, List.cons_append] at place
    obtain ⟨more, split⟩ := name.head (gap ++ '(' :: (inner ++ ')' :: (after ++ rest)))
    obtain ⟨named, place'⟩ := bare_readExpr_named name.first leads blank (split ▸ place)
    obtain ⟨d, read, atGap⟩ := readName_rendered
      (blankGap.ends (fun _ => not_namePart_of_blank) (.cons (by decide +kernel) _))
      (blankGap.ends (fun _ blank => by simpa using ne_of_blank blank (by decide))
        (.cons (by decide) _)) name _ (place'.trans split.symm)
    have opening : (d.val.skipWhile Text.isBlank).rest = '(' :: (inner ++ ')' :: (after ++ rest)) :=
      skipWhile_of_ends atGap blankGap (.cons (by decide) _)
    obtain ⟨e, read', place''⟩ := readArgs_rendered within (next_rest opening) fun nonempty =>
      Tree.readMoreArgs_rendered args nonempty within (next_rest opening)
    rw [named, readNamed, read]
    simp only [opening, read']
    exact ⟨e, rfl, stops.skipBlanks blank' place''⟩

theorem Tree.readMoreArgs_rendered (args : List Tree) (nonempty : args ≠ [])
    {text rest : List Char} {start : Cursor} (renders : Tree.RendersAll args text)
    (place : start.rest = text ++ ')' :: rest) :
    ∃ d : Cursor, bare (readMoreArgs start) = (Tree.exprs args, some d) ∧ d.rest = rest := by
  cases renders with
  | none => exact absurd rfl nonempty
  | one renders =>
    rename_i arg
    obtain ⟨d, read, shape⟩ := Tree.read_rendered arg renders (.cons (.inr rfl) rest) place
    rw [bare_readMoreArgs]
    simp only [read, shape]
    exact ⟨_, rfl, next_rest shape⟩
  | more renders following =>
    rename_i arg next others text texts
    rw [List.append_assoc] at place
    obtain ⟨d, read, shape⟩ := Tree.read_rendered arg renders (.cons (.inl rfl) _) place
    obtain ⟨e, read', place'⟩ := Tree.readMoreArgs_rendered (next :: others)
      (List.cons_ne_nil _ _) following (next_rest shape)
    rw [bare_readMoreArgs]
    simp only [read, shape, read']
    exact ⟨e, rfl, place'⟩

end

end CommandChain.Selector
