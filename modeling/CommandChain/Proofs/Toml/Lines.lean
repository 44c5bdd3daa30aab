import CommandChain.Proofs.Toml.Values

/-!
How documents are written, line by line: a header in brackets or a key with its value to a line,
with blanks around the parts, comments behind them, and empty lines and comments in between. The
statements that such a text was written for are those that are read.
-/
namespace CommandChain.Toml

open Selector (Ends)

def Blanks (chars : List Char) : Prop := ∀ c ∈ chars, isLineBlank c = true

theorem Blanks.nil : Blanks [] := by simp [Blanks]

/-- A comment or none. -/
def Comment (chars : List Char) : Prop :=
  chars = [] ∨ ∃ text, chars = '#' :: text ∧ ∀ c ∈ text, isControl c = false

/-- The rest of a line without a statement, and what follows the line. -/
inductive EndOfLine : List Char → List Char → Prop where
  | more {blanks comment ending rest} (blank : Blanks blanks) (remark : Comment comment)
    (ends : ending = ['\n'] ∨ ending = ['\r', '\n']) :
    EndOfLine (blanks ++ (comment ++ (ending ++ rest))) rest
  | last {blanks comment} (blank : Blanks blanks) (remark : Comment comment) :
    EndOfLine (blanks ++ comment) []

structure Bare (name : List Char) : Prop where
  nonempty : name ≠ []
  parts : ∀ c ∈ name, isBareKeyPart c = true

instance (name : List Char) : Decidable (Bare name) :=
  decidable_of_iff (name ≠ [] ∧ name.all isBareKeyPart = true)
    ⟨fun ⟨nonempty, parts⟩ => ⟨nonempty, List.all_eq_true.mp parts⟩,
      fun ⟨nonempty, parts⟩ => ⟨nonempty, List.all_eq_true.mpr parts⟩⟩

/-- The ways to write a header of one name, and a key of one name with a value that is no array and
no table. -/
inductive Stated : Statement → List Char → Prop where
  | header {name before after} (bare : Bare name) (blank : Blanks before) (blank' : Blanks after) :
    Stated (.header [] (String.ofList name)) ('[' :: (before ++ (name ++ (after ++ [']']))))
  | keyValue {name value text before after} (bare : Bare name) (spelled : Spelled value text)
    (blank : Blanks before) (blank' : Blanks after) :
    Stated (.keyValue [] (String.ofList name) value) (name ++ (before ++ '=' :: (after ++ text)))

/-- The ways to write statements one after the other. -/
inductive Written : List Statement → List Char → Prop where
  | nothing : Written [] []
  | empty {statements text rest} (line : EndOfLine text rest) (later : Written statements rest) :
    Written statements text
  | statement {statement statements before text tail rest} (blank : Blanks before)
    (stated : Stated statement text) (line : EndOfLine tail rest)
    (later : Written statements rest) : Written (statement :: statements) (before ++ (text ++ tail))

/-! ### Ends of lines -/

theorem skipBlanks_append {blanks rest : List Char} (blank : Blanks blanks)
    (ended : Ends isLineBlank rest) : skipBlanks (blanks ++ rest) = rest := by
  rw [skipBlanks, List.dropWhile_append_of_pos blank, ended.dropWhile]

def staysOnLine (c : Char) : Bool := c ≠ '\n' && c ≠ '\r'

theorem ends_line_ending {ending : List Char} (ends : ending = ['\n'] ∨ ending = ['\r', '\n'])
    (rest : List Char) : Ends staysOnLine (ending ++ rest) := by
  rcases ends with rfl | rfl <;> simp [Ends, staysOnLine]

theorem staysOnLine_of_clean {c : Char} (clean : isControl c = false) : staysOnLine c = true := by
  have no_feed : c ≠ '\n' := by rintro rfl; simp [isControl] at clean
  have no_return : c ≠ '\r' := by rintro rfl; simp [isControl] at clean
  simp [staysOnLine, no_feed, no_return]

theorem line_ending_cases {c : Char} (ends : staysOnLine c = false) : c = '\n' ∨ c = '\r' := by
  by_cases feed : c = '\n'
  · exact .inl feed
  · exact .inr (by simpa [staysOnLine, feed] using ends)

theorem Bounded.of_ends {rest : List Char} (ended : Ends staysOnLine rest) : Bounded rest := by
  intro c first
  rcases line_ending_cases (ended c first) with rfl | rfl <;> decide

theorem Comment.bounded {comment rest : List Char} (remark : Comment comment)
    (bounded : Bounded rest) : Bounded (comment ++ rest) := by
  rcases remark with rfl | ⟨text, rfl, -⟩
  · exact bounded
  · intro c first
    cases first
    decide

theorem Blanks.bounded {blanks rest : List Char} (blank : Blanks blanks)
    (bounded : Bounded rest) : Bounded (blanks ++ rest) := by
  cases blanks with
  | nil => exact bounded
  | cons c blanks =>
    intro d first
    cases first
    simp [isBoundary, blank c List.mem_cons_self]

theorem EndOfLine.bounded {text rest : List Char} (line : EndOfLine text rest) : Bounded text := by
  cases line with
  | more blank remark ends =>
    exact blank.bounded (remark.bounded (.of_ends (ends_line_ending ends rest)))
  | @last blanks comment blank remark =>
    have ended : Bounded (comment ++ []) := remark.bounded (by simp [Bounded])
    rw [List.append_nil] at ended
    exact blank.bounded ended

theorem afterComment?_comment {comment rest : List Char} (remark : Comment comment)
    (ended : Ends staysOnLine rest) : afterComment? (comment ++ rest) = some rest := by
  rcases remark with rfl | ⟨text, rfl, clean⟩
  · unfold afterComment?
    split
    · rename_i more shape
      rw [List.nil_append] at shape
      cases ended '#' (by simp [shape])
    · rfl
  · have stays : ∀ c ∈ text, staysOnLine c = true := fun c member =>
      staysOnLine_of_clean (clean c member)
    have taken : (text ++ rest).takeWhile staysOnLine = text := by
      rw [List.takeWhile_append_of_pos stays, ended.takeWhile, List.append_nil]
    have dropped : (text ++ rest).dropWhile staysOnLine = rest := by
      rw [List.dropWhile_append_of_pos stays, ended.dropWhile]
    have quiet : text.any isControl = false := by simpa using clean
    unfold staysOnLine at taken dropped
    simp only [List.cons_append, afterComment?, taken, dropped, quiet]
    rfl

theorem afterLine?_append {blanks comment tail : List Char} (blank : Blanks blanks)
    (remark : Comment comment) (ended : Ends staysOnLine tail) :
    afterLine? (blanks ++ (comment ++ tail)) = if tail = [] then some [] else lineEnd? tail := by
  have not_blank : Ends isLineBlank (comment ++ tail) := by
    rcases remark with rfl | ⟨text, rfl, -⟩
    · intro c first
      rcases line_ending_cases (ended c first) with rfl | rfl <;> decide
    · simp [Ends, isLineBlank]
  unfold afterLine?
  rw [skipBlanks_append blank not_blank, afterComment?_comment remark ended]
  rfl

theorem afterLine?_endOfLine {text rest : List Char} (line : EndOfLine text rest) :
    afterLine? text = some rest := by
  cases line with
  | more blank remark ends =>
    rw [afterLine?_append blank remark (ends_line_ending ends rest)]
    rcases ends with rfl | rfl <;> rfl
  | @last blanks comment blank remark =>
    have line : afterLine? (blanks ++ (comment ++ [])) = _ :=
      afterLine?_append blank remark (by simp [Ends])
    simpa using line

theorem EndOfLine.shorter {text rest : List Char} (line : EndOfLine text rest) (more : rest ≠ []) :
    rest.length < text.length := by
  cases line with
  | more blank remark ends =>
    rcases ends with rfl | rfl <;> simp only [List.length_append, List.length_cons] <;> omega
  | last blank remark => exact absurd rfl more

/-! ### Statements -/

theorem ne_of_bareKeyPart {c other : Char} (part : isBareKeyPart c = true)
    (no_part : isBareKeyPart other = false) : c ≠ other := by
  rintro rfl
  rw [part] at no_part
  cases no_part

theorem blank_cases {c : Char} (blank : isLineBlank c = true) : c = ' ' ∨ c = '\t' := by
  simpa [isLineBlank] using blank

theorem Bare.shape {name : List Char} (bare : Bare name) :
    ∃ c more, name = c :: more ∧ isBareKeyPart c = true := by
  obtain ⟨c, more, rfl⟩ := List.exists_cons_of_ne_nil bare.nonempty
  exact ⟨c, more, rfl, bare.parts c List.mem_cons_self⟩

theorem Bare.head_ne {name before rest more : List Char} {c : Char} (bare : Bare name)
    (blank : Blanks before) (no_part : isBareKeyPart c = false) (no_blank : isLineBlank c = false) :
    before ++ (name ++ rest) ≠ c :: more := by
  intro shape
  cases before with
  | nil =>
    obtain ⟨d, tail, rfl, part⟩ := bare.shape
    exact ne_of_bareKeyPart part no_part (List.cons.inj shape).1
  | cons d before =>
    have first := blank d List.mem_cons_self
    rw [(List.cons.inj shape).1, no_blank] at first
    cases first

theorem Bare.not_blank {name : List Char} (bare : Bare name) (rest : List Char) :
    Ends isLineBlank (name ++ rest) := by
  obtain ⟨c, more, rfl, part⟩ := bare.shape
  intro d first
  cases first
  refine Bool.eq_false_iff.mpr fun blank => ?_
  rcases blank_cases blank with rfl | rfl <;> cases part

theorem readName?_bare {name rest : List Char} (bare : Bare name)
    (ended : Ends isBareKeyPart rest) :
    readName? (name ++ rest) = some (String.ofList name, rest) := by
  have taken : (name ++ rest).takeWhile isBareKeyPart = name := by
    rw [List.takeWhile_append_of_pos bare.parts, ended.takeWhile, List.append_nil]
  have dropped : (name ++ rest).dropWhile isBareKeyPart = rest := by
    rw [List.dropWhile_append_of_pos bare.parts, ended.dropWhile]
  unfold readName?
  split
  · rename_i more quoted
    exact absurd quoted (bare.head_ne .nil (by decide) (by decide))
  · rename_i more quoted
    exact absurd quoted (bare.head_ne .nil (by decide) (by decide))
  · rw [taken, dropped, if_neg bare.nonempty]

theorem readKey?_bare {name before after : List Char} (bare : Bare name) (blank : Blanks before)
    (blank' : Blanks after) (c : Char) (no_part : isBareKeyPart c = false) (no_dot : c ≠ '.')
    (no_blank : isLineBlank c = false) (rest : List Char) :
    readKey? maxKeyNames (before ++ (name ++ (after ++ c :: rest))) =
      some (([], String.ofList name), c :: rest) := by
  have ended : Ends isBareKeyPart (after ++ c :: rest) := by
    cases after with
    | nil => simpa [Ends] using no_part
    | cons d after =>
      intro e first
      cases first
      rcases blank_cases (blank' d List.mem_cons_self) with rfl | rfl <;> decide
  have skipped : skipBlanks (after ++ c :: rest) = c :: rest :=
    skipBlanks_append blank' (by simpa [Ends] using no_blank)
  unfold maxKeyNames
  rw [readKey?, skipBlanks_append blank (bare.not_blank _), readName?_bare bare ended]
  simp only [Option.bind_eq_bind, Option.bind_some, skipped]
  split
  · rename_i dotted
    exact absurd (List.cons.inj dotted).1 no_dot
  · rfl

theorem Spelled.not_blank {value : Value} {text : List Char} (spelled : Spelled value text)
    (rest : List Char) : Ends isLineBlank (text ++ rest) := by
  cases spelled with
  | string quoted => obtain ⟨more, rfl | rfl⟩ := quoted.opens <;> simp [Ends, isLineBlank]
  | @whole n fits =>
    obtain ⟨c, more, shape⟩ := List.exists_cons_of_ne_nil (toDigits_ne_nil n)
    have digit : c.isDigit = true := digits_isDigit (n := n) (by rw [shape]; exact .head _)
    rw [shape]
    intro d first
    cases first
    refine Bool.eq_false_iff.mpr fun blank => ?_
    rcases blank_cases blank with rfl | rfl <;> cases digit
  | truth b => cases b <;> simp [Ends, isLineBlank, truthWord]

theorem readStatement?_stated {statement : Statement} {text rest : List Char}
    (stated : Stated statement text) (bounded : Bounded rest) :
    readStatement? (text ++ rest) = some (statement, rest) := by
  cases stated with
  | @header name before after bare blank blank' =>
    have key := readKey?_bare bare blank blank' ']' (by decide) (by decide) (by decide) rest
    simp only [List.cons_append, List.append_assoc, List.nil_append]
    rw [readStatement?]
    · simp [key, after?]
    · exact fun more => bare.head_ne blank (by decide) (by decide)
  | @keyValue name value text before after bare spelled blank blank' =>
    have key := readKey?_bare bare .nil blank '=' (by decide) (by decide) (by decide)
      (after ++ (text ++ rest))
    have read := readValue?_spelled spelled bounded maxNesting
    have skipped : skipBlanks (after ++ (text ++ rest)) = text ++ rest :=
      skipBlanks_append blank' (spelled.not_blank rest)
    have no_header (more : List Char) : name ++ (before ++ '=' :: (after ++ (text ++ rest))) ≠
        '[' :: more := bare.head_ne .nil (by decide) (by decide)
    simp only [List.append_assoc, List.cons_append]
    rw [List.nil_append] at key
    rw [readStatement?]
    · simp [readPair?, key, after?, skipped, read]
    · exact fun more => no_header ('[' :: more)
    · exact no_header

theorem Stated.shape {statement : Statement} {text : List Char} (stated : Stated statement text) :
    ∃ c more, text = c :: more ∧ (c = '[' ∨ isBareKeyPart c = true) := by
  cases stated with
  | header bare blank blank' => exact ⟨'[', _, rfl, .inl rfl⟩
  | keyValue bare spelled blank blank' =>
    obtain ⟨c, more, rfl, part⟩ := bare.shape
    exact ⟨c, _, rfl, .inr part⟩

theorem Stated.head_ne {statement : Statement} {text : List Char} (stated : Stated statement text)
    {c : Char} (differ : c ≠ '[') (no_part : isBareKeyPart c = false) (rest more : List Char) :
    text ++ rest ≠ c :: more := by
  obtain ⟨d, tail, rfl, opens⟩ := stated.shape
  intro shape
  obtain ⟨rfl, -⟩ := List.cons.inj shape
  rcases opens with bracket | part
  · exact differ bracket
  · exact ne_of_bareKeyPart part no_part rfl

theorem Stated.not_blank {statement : Statement} {text : List Char} (stated : Stated statement text)
    (rest : List Char) : Ends isLineBlank (text ++ rest) := by
  intro c first
  obtain ⟨more, shape⟩ := List.head?_eq_some_iff.mp first
  refine Bool.eq_false_iff.mpr fun blank => ?_
  rcases blank_cases blank with rfl | rfl
  · exact stated.head_ne (by decide) (by decide) rest more shape
  · exact stated.head_ne (by decide) (by decide) rest more shape

theorem afterComment?_stated {statement : Statement} {text : List Char}
    (stated : Stated statement text) (rest : List Char) :
    afterComment? (text ++ rest) = some (text ++ rest) := by
  unfold afterComment?
  split
  · rename_i more shape
    exact absurd shape (stated.head_ne (by decide) (by decide) rest more)
  · rfl

theorem lineEnd?_stated {statement : Statement} {text : List Char} (stated : Stated statement text)
    (rest : List Char) : lineEnd? (text ++ rest) = none := by
  unfold lineEnd?
  split
  · rename_i more shape
    exact absurd shape (stated.head_ne (by decide) (by decide) rest more)
  · rename_i more shape
    exact absurd shape (stated.head_ne (by decide) (by decide) rest ('\n' :: more))
  · rfl

/-- A statement is not taken for the rest of a line. -/
theorem afterLine?_stated {statement : Statement} {before text : List Char} (blank : Blanks before)
    (stated : Stated statement text) (rest : List Char) :
    afterLine? (before ++ (text ++ rest)) = none := by
  have something : text ++ rest ≠ [] := by
    obtain ⟨c, more, rfl, -⟩ := stated.shape
    simp
  rw [afterLine?, skipBlanks_append blank (stated.not_blank rest), afterComment?_stated stated]
  simp [something, lineEnd?_stated stated]

theorem EndOfLine.length_le {text rest : List Char} (line : EndOfLine text rest) :
    rest.length ≤ text.length := by
  cases rest with
  | nil => exact Nat.zero_le _
  | cons c rest => exact Nat.le_of_lt (line.shorter (List.cons_ne_nil c rest))

theorem Written.of_empty {statements : List Statement} {text : List Char}
    (written : Written statements text) (empty : text.length = 0) : statements = [] := by
  induction written with
  | nothing => rfl
  | empty line later ih =>
    have shorter := line.length_le
    exact ih (by omega)
  | statement blank stated line later ih =>
    obtain ⟨c, more, rfl, -⟩ := stated.shape
    simp at empty

/-- A document is read as the statements that it was written for. -/
theorem readStatements?_written {statements : List Statement} {text : List Char}
    (written : Written statements text) {limit : Nat} (room : text.length < limit) :
    readStatements? limit text = some statements := by
  induction written generalizing limit with
  | nothing =>
    obtain ⟨limit, rfl⟩ := Nat.exists_eq_add_one.mpr (Nat.zero_lt_of_lt room)
    rfl
  | @empty statements text rest line later ih =>
    obtain ⟨limit, rfl⟩ := Nat.exists_eq_add_one.mpr (Nat.zero_lt_of_lt room)
    rw [readStatements?, afterLine?_endOfLine line]
    cases rest with
    | nil => rw [later.of_empty rfl]
    | cons c rest =>
      have shorter := line.shorter (List.cons_ne_nil c rest)
      exact ih (Nat.lt_of_lt_of_le shorter (Nat.lt_succ_iff.mp room))
  | @statement statement statements before text tail rest blank stated line later ih =>
    obtain ⟨limit, rfl⟩ := Nat.exists_eq_add_one.mpr (Nat.zero_lt_of_lt room)
    have no_end := afterLine?_stated blank stated tail
    have ahead := skipBlanks_append blank (stated.not_blank tail)
    have shorter : rest.length < limit := by
      obtain ⟨c, more, shape, -⟩ := stated.shape
      have remains := line.length_le
      simp only [shape, List.length_append, List.length_cons] at room
      omega
    rw [readStatements?, no_end, ahead, readStatement?_stated stated line.bounded]
    simp [afterLine?_endOfLine line, ih shorter]

/-! ### Writing -/

theorem Spelled.printString (s : String) : Spelled (.string s) (printString s) := by
  have spelled := Spelled.string (printString_quoted s)
  rwa [String.ofList_toList] at spelled

section

variable {statements : List Statement} {rest : List Char}

theorem EndOfLine.feed {comment : List Char} (remark : Comment comment) (rest : List Char) :
    EndOfLine (comment ++ '\n' :: rest) rest :=
  .more .nil remark (.inl rfl)

theorem Written.headerLine (name : String) (bare : Bare name.toList)
    (later : Written statements rest) :
    Written (.header [] name :: statements) ('[' :: (name.toList ++ (']' :: '\n' :: rest))) := by
  have stated : Stated (.header [] name) ('[' :: ([] ++ (name.toList ++ ([] ++ [']'])))) := by
    have stated := Stated.header bare .nil .nil
    rwa [String.ofList_toList] at stated
  simpa using Written.statement .nil stated (.feed (.inl rfl) rest) later

theorem Written.pairLine (key : String) (bare : Bare key.toList) {value : Value}
    {text : List Char} (spelled : Spelled value text) (later : Written statements rest) :
    Written (.keyValue [] key value :: statements)
      (key.toList ++ (' ' :: '=' :: ' ' :: (text ++ ('\n' :: rest)))) := by
  have stated : Stated (.keyValue [] key value)
      (key.toList ++ ([' '] ++ '=' :: ([' '] ++ text))) := by
    have blank : Blanks [' '] := by simp [Blanks, isLineBlank]
    have stated := Stated.keyValue bare spelled blank blank
    rwa [String.ofList_toList] at stated
  simpa using Written.statement .nil stated (.feed (.inl rfl) rest) later

end

end CommandChain.Toml
