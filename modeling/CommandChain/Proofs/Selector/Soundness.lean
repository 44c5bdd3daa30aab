import CommandChain.Proofs.Selector.Completeness

/-!
Whatever is read, with nothing after it but what may follow an expression, is a text of a tree, and
the expression is what is read of that tree.
-/
namespace CommandChain.Selector

open Cursor

theorem run_name {c : Cursor} (nonempty : c.run isNamePart ≠ "") :
    ∃ name : Name, name.text = c.run isNamePart ∧
      c.rest = name.chars ++ (c.skipWhile isNamePart).rest := by
  refine ⟨⟨c.rest.takeWhile isNamePart, fun empty => nonempty ?_, ?_⟩, rfl, c.run_append _⟩
  · simp [run, empty]
  · exact fun char member => List.all_eq_true.1 List.all_takeWhile char member

theorem readSteps_sound {c d : Cursor} {steps : Steps}
    (read : bare (readSteps c) = (steps, some d)) :
    ∃ (first : Name) (names : List Name), steps = stepsOf (first :: names) ∧
      first.text = c.run isNamePart ∧ c.rest = first.chars ++ (stepsChars names ++ d.rest) := by
  rw [bare_readSteps] at read
  split at read
  · cases read
  rename_i nonempty
  obtain ⟨first, same, text⟩ := run_name nonempty
  rw [← same] at read
  split at read
  · rename_i shape
    have shorter : (c.skipWhile isNamePart).next.rest.length < c.rest.length :=
      Nat.lt_of_lt_of_le (next_length_lt shape) (c.skipWhile_length_le _)
    cases read' : bare (readSteps (c.skipWhile isNamePart).next) with | mk steps' end'
    rw [read'] at read
    cases read
    obtain ⟨step, names, rfl, -, text'⟩ := readSteps_sound read'
    rw [next_rest shape] at text'
    exact ⟨first, step :: names, rfl, same, by simp [text, shape, text', stepsChars]⟩
  · cases read
    exact ⟨first, [], rfl, same, text⟩
termination_by c.rest.length

theorem readMoreSteps_sound {c d : Cursor} {steps : Steps}
    (read : bare (readMoreSteps c) = (steps, some d)) :
    ∃ names : List Name, steps = stepsOf names ∧ c.rest = stepsChars names ++ d.rest := by
  rw [bare_readMoreSteps] at read
  split at read
  · rename_i shape
    obtain ⟨first, names, rfl, -, text⟩ := readSteps_sound read
    rw [next_rest shape] at text
    exact ⟨first :: names, rfl, by simp [shape, text, stepsChars]⟩
  · cases read
    exact ⟨[], rfl, rfl⟩

theorem readName_sound {c : Cursor} {text : String} {d : Later c}
    (read : readName c = .ok (text, d)) :
    ∃ name : QualifiedName, text = name.text ∧ c.rest = name.chars ++ d.val.rest ∧
      name.first.text = c.run isNamePart := by
  unfold readName at read
  simp only [past] at read
  split at read
  · cases read
  rename_i nonempty
  obtain ⟨first, same, place⟩ := run_name nonempty
  split at read
  · rename_i shape
    by_cases nonempty' : (c.skipWhile isNamePart).next.run isNamePart = ""
    · simp [nonempty'] at read
    obtain ⟨name, same', place'⟩ := run_name nonempty'
    simp only [nonempty', if_false] at read
    cases read
    refine ⟨.prefixed first name, ?_, ?_, same⟩
    · rw [QualifiedName.text_prefixed, same, same']
    · rw [next_rest shape] at place'
      simp [place, shape, place', QualifiedName.chars]
  · cases read
    exact ⟨.plain first, same.symm, place, same⟩

theorem Numeral.denotes_of_numberValue {numeral : Numeral} {value : Value}
    (reads : numberValue? numeral.text = some value) : numeral.Denotes value := by
  unfold numberValue? at reads
  cases whole : readInt64? numeral.text with
  | some i =>
    obtain rfl : .int i = value := by simpa [whole] using reads
    exact .whole whole
  | none =>
    obtain ⟨x, binary, rfl⟩ : ∃ x, Binary64.read? numeral.text = some x ∧ .float x = value := by
      simpa [whole] using reads
    exact .binary whole binary

theorem readNumber_sound {c d : Cursor} {char : Char} {tail : List Char} {expr : Expr}
    (opens : char.isDigit = true ∨ char = '-') (shape : c.rest = char :: tail)
    (read : bare (readNumber c) = (expr, some d)) :
    ∃ (numeral : Numeral) (value : Value) (denotes : numeral.Denotes value),
      expr = (Leaf.number numeral value denotes).expr ∧ c.rest = numeral.chars ++ d.rest := by
  rw [bare_readNumber] at read
  obtain ⟨numeral, signed, place⟩ : ∃ numeral : Numeral,
      (afterSign c).1 ++ (afterSign c).2.run isNumberPart = numeral.text ∧
        c.rest = numeral.chars ++ ((afterSign c).2.skipWhile isNumberPart).rest := by
    have parts (c : Cursor) : ∀ char ∈ c.rest.takeWhile isNumberPart, isNumberPart char = true :=
      List.all_eq_true.1 List.all_takeWhile
    unfold afterSign
    split
    · rename_i shape
      refine ⟨⟨true, _, parts c.next, .inl rfl⟩, by simp [run, Numeral.text, Numeral.chars], ?_⟩
      simpa [Numeral.chars, shape, next_rest shape] using c.next.run_append isNumberPart
    · rename_i unsigned
      have digit : char.isDigit = true :=
        opens.resolve_right fun minus => unsigned tail (minus ▸ shape)
      refine ⟨⟨false, _, parts c, .inr ⟨char, ?_, digit⟩⟩,
        by simp [run, Numeral.text, Numeral.chars], c.run_append _⟩
      simp [shape, isNumberPart, digit]
  simp only [signed] at read
  split at read
  · rename_i value reads
    cases read
    exact ⟨numeral, value, Numeral.denotes_of_numberValue reads, rfl, place⟩
  · cases read

theorem readQuoted_sound {c d : Cursor} {quote : Quote} {expr : Expr}
    (read : bare (readQuoted quote.char c) = (expr, some d)) :
    ∃ (text : List Char) (apart : quote.char ∉ text),
      expr = (Leaf.quoted quote text apart).expr ∧ c.rest = text ++ quote.char :: d.rest := by
  rw [bare_readQuoted] at read
  split at read
  · cases read
  rename_i rest unfinished
  cases read
  cases shape : (c.skipWhile (· ≠ quote.char)).rest with
  | nil => exact absurd shape unfinished
  | cons char more =>
    obtain rfl : char = quote.char := by
      simpa using c.skipWhile_ends (· ≠ quote.char) char (by rw [shape]; rfl)
    refine ⟨c.rest.takeWhile (· ≠ quote.char), fun member => ?_, rfl, ?_⟩
    · simpa using List.all_eq_true.1 List.all_takeWhile _ member
    · rw [next_rest shape, ← shape]
      exact c.run_append _

theorem blank_run (c : Cursor) : Blank (c.rest.takeWhile Text.isBlank) :=
  List.all_eq_true.1 List.all_takeWhile

theorem Leaf.sound (leaf : Leaf) {start d : Cursor}
    (place : (start.skipWhile Text.isBlank).rest = leaf.chars ++ d.rest) :
    ∃ text : List Char, (Tree.atom leaf).Renders text ∧
      start.rest = text ++ (d.skipWhile Text.isBlank).rest := by
  refine ⟨_, .atom (blank_run start) (blank_run d), ?_⟩
  rw [List.append_assoc, List.append_assoc, ← d.run_append, ← place, ← start.run_append]

theorem word_sound {word : String} {value : Value} (reads : wordValue? word = some value) :
    ∃ leaf : Leaf, leaf.expr = .literal value ∧ leaf.chars = word.toList := by
  unfold wordValue? at reads
  split at reads
  · cases reads
    exact ⟨.bool true, rfl, rfl⟩
  · cases reads
    exact ⟨.bool false, rfl, rfl⟩
  · cases reads
    exact ⟨.null, rfl, rfl⟩
  · cases reads

theorem not_word {word : String} (reads : wordValue? word = none) :
    word ∉ ["true", "false", "null"] := by
  intro member
  simp only [List.mem_cons, List.not_mem_nil, or_false] at member
  obtain rfl | rfl | rfl := member <;> cases reads

theorem Name.ext_text {name other : Name} (same : name.text = other.text) : name = other := by
  cases name
  cases other
  simpa [text, String.ofList_inj] using same

theorem opening_shorter {start : Cursor} (afterName : Later (start.skipWhile Text.isBlank))
    {tail : List Char} (opening : (afterName.val.skipWhile Text.isBlank).rest = '(' :: tail) :
    (afterName.val.skipWhile Text.isBlank).next.rest.length < start.rest.length :=
  calc (afterName.val.skipWhile Text.isBlank).next.rest.length
      < (afterName.val.skipWhile Text.isBlank).rest.length := next_length_lt opening
    _ ≤ afterName.val.rest.length := skipWhile_length_le _ _
    _ ≤ (start.skipWhile Text.isBlank).rest.length := afterName.property
    _ ≤ start.rest.length := skipWhile_length_le _ _

theorem afterArg_shorter {start afterArg : Cursor} {char : Char} {tail : List Char}
    (le : afterArg.rest.length ≤ start.rest.length)
    (shape : (afterArg.skipWhile Text.isBlank).rest = char :: tail) :
    (afterArg.skipWhile Text.isBlank).next.rest.length < start.rest.length :=
  calc (afterArg.skipWhile Text.isBlank).next.rest.length
      < (afterArg.skipWhile Text.isBlank).rest.length := next_length_lt shape
    _ ≤ afterArg.rest.length := skipWhile_length_le _ _
    _ ≤ start.rest.length := le

theorem leads_of_read {c : Cursor} {char : Char} {tail rest : List Char} {name : QualifiedName}
    (shape : c.rest = char :: tail) (opens : ¬ (char.isDigit = true ∨ char = '-'))
    (place : c.rest = name.chars ++ rest) : name.first.Leads := by
  obtain ⟨more, split⟩ := name.head rest
  obtain ⟨c, more', split', head⟩ := name.first.head more
  rw [split, split', shape] at place
  cases place
  intro other same
  cases head.symm.trans same
  simpa using opens

theorem Stops.colonless {d : Cursor} (stops : Stops (d.skipWhile Text.isBlank).rest)
    (names : List Name) (rest : List Char) : ':' :: rest ≠ stepsChars names ++ d.rest := by
  intro colon
  cases names with
  | nil =>
    have shape : d.rest = ':' :: rest := colon.symm
    have still : (d.skipWhile Text.isBlank).rest = d.rest :=
      skipWhile_of_ends (List.nil_append _).symm Blank.nil (shape ▸ .cons (by decide) _)
    simpa using stops ':' (by rw [still, shape]; rfl)
  | cons step names => simp [stepsChars] at colon

theorem readNamed_sound {start d : Cursor} {char : Char} {tail : List Char} {expr : Expr}
    (shape : (start.skipWhile Text.isBlank).rest = char :: tail)
    (opens : ¬ (char.isDigit = true ∨ char = '-'))
    (args : ∀ {e d : Cursor} {args : Args}, e.rest.length < start.rest.length →
      bare (readArgs e) = (args, some d) → ∃ (trees : List Tree) (text : List Char),
        args = Tree.exprs trees ∧ Tree.RendersAll trees text ∧ e.rest = text ++ ')' :: d.rest)
    (stops : Stops (d.skipWhile Text.isBlank).rest)
    (read : readNamed (start.skipWhile Text.isBlank) = (expr, some d)) :
    ∃ (tree : Tree) (text : List Char), expr = tree.expr ∧ tree.Renders text ∧
      start.rest = text ++ (d.skipWhile Text.isBlank).rest := by
  unfold readNamed at read
  split at read
  · cases read
  rename_i text afterName named
  obtain ⟨name, rfl, place, first⟩ := readName_sound named
  have leads : name.first.Leads := leads_of_read shape opens place
  dsimp only at read
  split at read
  · rename_i opening
    cases read' : bare (readArgs (afterName.val.skipWhile Text.isBlank).next) with | mk inner end'
    rw [read'] at read
    cases read
    obtain ⟨trees, text, rfl, renders, place'⟩ := args (opening_shorter afterName opening) read'
    rw [next_rest opening] at place'
    refine ⟨.call name leads trees, _, rfl,
      .call (blank_run start) (blank_run afterName.val) renders (blank_run d), ?_⟩
    simp only [List.append_assoc, List.cons_append]
    rw [← d.run_append, ← place', ← opening, ← afterName.val.run_append, ← place,
      ← start.run_append]
  · split at read
    · rename_i value word
      cases read
      obtain ⟨leaf, expr, chars⟩ := word_sound word
      have here : (start.skipWhile Text.isBlank).rest = leaf.chars ++ afterName.val.rest :=
        place.trans (by rw [chars, QualifiedName.text, String.toList_ofList])
      obtain ⟨text, renders, place'⟩ := leaf.sound here
      exact ⟨.atom leaf, text, expr.symm, renders, by rw [skipWhile_skipWhile]; exact place'⟩
    · rename_i notWord
      cases read' : bare (readSteps (start.skipWhile Text.isBlank)) with | mk steps end'
      rw [read'] at read
      cases read
      obtain ⟨head, names, rfl, same, place'⟩ := readSteps_sound read'
      obtain rfl : name.first = head := Name.ext_text (first.trans same.symm)
      cases name with
      | plain name =>
        obtain ⟨text, renders, place''⟩ := (Leaf.path name names leads (not_word notWord)).sound
          (place'.trans (List.append_assoc _ _ _).symm)
        exact ⟨_, text, rfl, renders, place''⟩
      | prefixed space name =>
        -- The steps end at the colon, where no expression does.
        rw [place, QualifiedName.chars, QualifiedName.first, List.append_assoc] at place'
        exact absurd (List.append_cancel_left place') (stops.colonless names _)

mutual

/-- An expression that is read, with nothing after it but what ends one, is a text of a tree. -/
theorem readExpr_sound {start d : Cursor} {expr : Expr}
    (stops : Stops (d.skipWhile Text.isBlank).rest)
    (read : bare (readExpr start) = (expr, some d)) :
    ∃ (tree : Tree) (text : List Char), expr = tree.expr ∧ tree.Renders text ∧
      start.rest = text ++ (d.skipWhile Text.isBlank).rest := by
  have ofLeaf (leaf : Leaf) (same : expr = leaf.expr)
      (place : (start.skipWhile Text.isBlank).rest = leaf.chars ++ d.rest) :
      ∃ (tree : Tree) (text : List Char), expr = tree.expr ∧ tree.Renders text ∧
        start.rest = text ++ (d.skipWhile Text.isBlank).rest := by
    obtain ⟨text, renders, place⟩ := leaf.sound place
    exact ⟨.atom leaf, text, same, renders, place⟩
  rw [bare_readExpr] at read
  dsimp only at read
  split at read
  · cases read
  rename_i char tail shape
  split at read
  · rename_i point
    cases read' : bare (readMoreSteps (start.skipWhile Text.isBlank).next) with | mk steps end'
    rw [read'] at read
    cases read
    obtain ⟨names, rfl, text⟩ := readMoreSteps_sound read'
    rw [next_rest shape] at text
    exact ofLeaf (.subject names) rfl (by rw [shape, text, point]; rfl)
  split at read
  · rename_i dollar
    split at read
    · cases read
    rename_i name afterName named
    cases read' : bare (readMoreSteps afterName.val) with | mk steps end'
    rw [read'] at read
    cases read
    obtain ⟨names, rfl, text⟩ := readMoreSteps_sound read'
    obtain ⟨name, rfl, place, -⟩ := readName_sound named
    rw [text, next_rest shape, ← List.append_assoc] at place
    exact ofLeaf (.var name names) rfl (by rw [shape, place, dollar]; rfl)
  split at read
  · rename_i quoted
    obtain ⟨quote, rfl⟩ : ∃ quote : Quote, char = quote.char := by
      obtain rfl | rfl := quoted
      · exact ⟨.single, rfl⟩
      · exact ⟨.double, rfl⟩
    obtain ⟨text, apart, same, place⟩ := readQuoted_sound read
    rw [next_rest shape] at place
    exact ofLeaf _ same (by rw [shape, place]; simp [Leaf.chars])
  split at read
  · rename_i opens
    obtain ⟨numeral, value, denotes, same, place⟩ := readNumber_sound opens shape read
    exact ofLeaf _ same place
  · rename_i opens
    exact readNamed_sound shape opens (fun shorter read => readArgs_sound read) stops read
termination_by 3 * start.rest.length

theorem readArgs_sound {start d : Cursor} {args : Args}
    (read : bare (readArgs start) = (args, some d)) :
    ∃ (trees : List Tree) (text : List Char), args = Tree.exprs trees ∧
      Tree.RendersAll trees text ∧ start.rest = text ++ ')' :: d.rest := by
  rw [bare_readArgs] at read
  dsimp only at read
  split at read
  · rename_i shape
    cases read
    refine ⟨[], _, rfl, .none (blank_run start), ?_⟩
    rw [next_rest shape, ← shape, ← start.run_append]
  · rw [bare_readMoreArgs_blanks] at read
    obtain ⟨tree, trees, text, same, renders, place⟩ := readMoreArgs_sound read
    exact ⟨tree :: trees, text, same, renders, place⟩
termination_by 3 * start.rest.length + 2

theorem readMoreArgs_sound {start d : Cursor} {args : Args}
    (read : bare (readMoreArgs start) = (args, some d)) :
    ∃ (tree : Tree) (trees : List Tree) (text : List Char), args = Tree.exprs (tree :: trees) ∧
      Tree.RendersAll (tree :: trees) text ∧ start.rest = text ++ ')' :: d.rest := by
  rw [bare_readMoreArgs] at read
  split at read
  · cases read
  rename_i expr afterArg readArg
  dsimp only at read
  split at read
  · rename_i shape
    cases read
    obtain ⟨tree, text, rfl, renders, place⟩ := readExpr_sound (shape ▸ .cons (.inr rfl) _) readArg
    exact ⟨tree, [], text, rfl, .one renders, by rw [place, next_rest shape, shape]⟩
  · rename_i shape
    have shorter := afterArg_shorter (le_of_bare readArg) shape
    cases read' : bare (readMoreArgs (afterArg.skipWhile Text.isBlank).next) with | mk others end'
    rw [read'] at read
    cases read
    obtain ⟨tree, text, rfl, renders, place⟩ := readExpr_sound (shape ▸ .cons (.inl rfl) _) readArg
    obtain ⟨next, trees, texts, rfl, following, place'⟩ := readMoreArgs_sound read'
    rw [next_rest shape] at place'
    refine ⟨tree, next :: trees, _, rfl, .more renders following, ?_⟩
    rw [place, shape, place', List.append_assoc, List.cons_append]
  · cases read
termination_by 3 * start.rest.length + 1

end

end CommandChain.Selector
