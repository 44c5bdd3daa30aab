import CommandChain.Toml.Strings

/-!
How strings are written in documents. A string between double quotes may have any character escaped
and must have some; one between single quotes holds its characters as they are; both may go over
several lines. Whatever way a string is written in, it is read back, and every string can be written
in one of them.
-/
namespace CommandChain.Toml

def Plain (c : Char) : Prop := isControl c = false ∧ c ≠ '"' ∧ c ≠ '\\'

/-- Characters that may stand for themselves if the string goes over several lines. -/
def LinePlain (c : Char) : Prop := Plain c ∨ c = '\n'

/-- The ways to write characters between double quotes. -/
inductive Escaped (raw : Char → Prop) : List Char → List Char → Prop where
  | nil : Escaped raw [] []
  | raw {c s text} (stands : raw c) (rest : Escaped raw s text) : Escaped raw (c :: s) (c :: text)
  | letter {l c s text} (means : letterEscape? l = some c) (rest : Escaped raw s text) :
    Escaped raw (c :: s) ('\\' :: l :: text)
  | short {a b c d char s text} (code : codeChar? [a, b, c, d] = some char)
    (rest : Escaped raw s text) : Escaped raw (char :: s) ('\\' :: 'u' :: a :: b :: c :: d :: text)
  | long {a b c d e f g h char s text} (code : codeChar? [a, b, c, d, e, f, g, h] = some char)
    (rest : Escaped raw s text) :
    Escaped raw (char :: s) ('\\' :: 'U' :: a :: b :: c :: d :: e :: f :: g :: h :: text)

/-- The characters of a string that goes over several lines and has nothing escaped. -/
def Verbatim (s text : List Char) : Prop :=
  text = s ∧ ∀ c ∈ s, c ≠ '\'' ∧ (isControl c = false ∨ c = '\n')

/-- The ways to write a string between three quotes: one or two of them may stand between what else
is in it, and at its end. -/
inductive Runs (quote : Char) (between : List Char → List Char → Prop) :
    List Char → List Char → Prop where
  | last {s text} (only : between s text) : Runs quote between s text
  | quotes {s text run s' text'} (before : between s text)
    (few : run = [quote] ∨ run = [quote, quote]) (apart : text'.head? ≠ some quote)
    (rest : Runs quote between s' text') :
    Runs quote between (s ++ (run ++ s')) (text ++ (run ++ text'))

/-- The ways to write a string. A line end right behind the three opening quotes does not count, so
one that does has another before it. -/
inductive Quoted : List Char → List Char → Prop where
  | basic {s text} (escaped : Escaped Plain s text) : Quoted s ('"' :: (text ++ ['"']))
  | literal {s} (clean : ∀ c ∈ s, isControl c = false ∧ c ≠ '\'') : Quoted s ('\'' :: (s ++ ['\'']))
  | basicLines {s text opening} (runs : Runs '"' (Escaped LinePlain) s text)
    (opens : opening = ['\n'] ∨ opening = [] ∧ lineEnd? text = none) :
    Quoted s ('"' :: '"' :: '"' :: (opening ++ (text ++ ['"', '"', '"'])))
  | literalLines {s text opening} (runs : Runs '\'' Verbatim s text)
    (opens : opening = ['\n'] ∨ opening = [] ∧ lineEnd? text = none) :
    Quoted s ('\'' :: '\'' :: '\'' :: (opening ++ (text ++ ['\'', '\'', '\''])))

theorem letterEscape?_ne {l c : Char} (means : letterEscape? l = some c) : l ≠ 'u' ∧ l ≠ 'U' := by
  constructor <;> rintro rfl <;> simp [letterEscape?] at means

theorem readBasic?_escaped {s text : List Char} (escaped : Escaped Plain s text)
    (rest : List Char) : readBasic? (text ++ '"' :: rest) = some (s, rest) := by
  induction escaped with
  | nil => rfl
  | raw stands later ih =>
    obtain ⟨clean, no_quote, no_slash⟩ := stands
    rw [List.cons_append, readBasic?]
    · simp [clean, no_slash, ih, withChar]
    all_goals simp_all
  | letter means later ih =>
    obtain ⟨no_short, no_long⟩ := letterEscape?_ne means
    rw [List.cons_append, List.cons_append, readBasic?]
    · simp [means, ih, withChar]
    all_goals simp_all
  | short code later ih => simp [readBasic?, code, ih, withChar]
  | long code later ih => simp [readBasic?, code, ih, withChar]

theorem readLiteral?_clean {s : List Char} (clean : ∀ c ∈ s, isControl c = false ∧ c ≠ '\'')
    (rest : List Char) : readLiteral? (s ++ '\'' :: rest) = some (s, rest) := by
  induction s with
  | nil => rfl
  | cons c s ih =>
    obtain ⟨fine, no_quote⟩ := clean c List.mem_cons_self
    have later := ih fun other member => clean other (List.mem_cons_of_mem _ member)
    rw [List.cons_append, readLiteral?]
    · simp [fine, later, withChar]
    · exact no_quote

/-! ### Strings over several lines -/

theorem closing?_end {quote : Char} {run rest : List Char}
    (few : run = [] ∨ run = [quote] ∨ run = [quote, quote]) (ended : rest.head? ≠ some quote) :
    closing? quote (run ++ quote :: quote :: quote :: rest) = some (run, rest) := by
  have stops : rest.takeWhile (· = quote) = [] := by
    cases rest with
    | nil => rfl
    | cons c rest => simp_all
  rcases few with rfl | rfl | rfl <;> simp [closing?, stops]

theorem closing?_none {quote c : Char} {run rest : List Char}
    (few : run = [] ∨ run = [quote] ∨ run = [quote, quote]) (apart : c ≠ quote) :
    closing? quote (run ++ c :: rest) = none := by
  rcases few with rfl | rfl | rfl <;> simp [closing?, apart]

theorem lineEnd?_none {c : Char} (fine : isControl c = false) (rest : List Char) :
    lineEnd? (c :: rest) = none := by
  have no_feed : c ≠ '\n' := by rintro rfl; simp [isControl] at fine
  have no_return : c ≠ '\r' := by rintro rfl; simp [isControl] at fine
  unfold lineEnd?
  split <;> simp_all

theorem endsLine_letter {l c : Char} (means : letterEscape? l = some c) (rest : List Char) :
    endsLine (l :: rest) = false := by
  unfold letterEscape? at means
  split at means <;> simp_all [endsLine, isLineBlank, lineEnd?]

theorem readBasicLines?_escaped {s text tail : List Char} {read : List Char × List Char}
    (escaped : Escaped LinePlain s text)
    (later : ∀ limit, tail.length < limit → readBasicLines? limit tail = some read) {limit : Nat}
    (room : (text ++ tail).length < limit) :
    readBasicLines? limit (text ++ tail) = some (s ++ read.1, read.2) := by
  induction escaped generalizing limit with
  | nil => exact later limit room
  | raw stands _ ih =>
    obtain ⟨limit, rfl⟩ := Nat.exists_eq_add_one.mpr (Nat.zero_lt_of_lt room)
    have read := ih (Nat.lt_of_succ_lt_succ room)
    rcases stands with ⟨fine, no_quote, no_slash⟩ | rfl
    · simp [readBasicLines?, closing?, no_quote, lineEnd?_none fine, fine, read, withChar]
    · simp [readBasicLines?, closing?, lineEnd?, read, withChar]
  | letter means _ ih =>
    obtain ⟨limit, rfl⟩ := Nat.exists_eq_add_one.mpr (Nat.zero_lt_of_lt room)
    have read := @ih limit (by simp only [List.cons_append, List.length_cons] at room; omega)
    obtain ⟨no_short, no_long⟩ := letterEscape?_ne means
    simp only [List.cons_append, readBasicLines?, closing?, endsLine_letter means]
    split <;> simp_all [withChar]
  | short code _ ih =>
    obtain ⟨limit, rfl⟩ := Nat.exists_eq_add_one.mpr (Nat.zero_lt_of_lt room)
    have read := @ih limit (by simp only [List.cons_append, List.length_cons] at room; omega)
    simp [readBasicLines?, closing?, endsLine, isLineBlank, lineEnd?, code, read, withChar]
  | long code _ ih =>
    obtain ⟨limit, rfl⟩ := Nat.exists_eq_add_one.mpr (Nat.zero_lt_of_lt room)
    have read := @ih limit (by simp only [List.cons_append, List.length_cons] at room; omega)
    simp [readBasicLines?, closing?, endsLine, isLineBlank, lineEnd?, code, read, withChar]

theorem readLiteralLines?_verbatim {s text tail : List Char} {read : List Char × List Char}
    (verbatim : Verbatim s text)
    (later : ∀ limit, tail.length < limit → readLiteralLines? limit tail = some read) {limit : Nat}
    (room : (text ++ tail).length < limit) :
    readLiteralLines? limit (text ++ tail) = some (s ++ read.1, read.2) := by
  obtain ⟨same, clean⟩ := verbatim
  subst same
  induction text generalizing limit with
  | nil => exact later limit room
  | cons c text ih =>
    obtain ⟨limit, rfl⟩ := Nat.exists_eq_add_one.mpr (Nat.zero_lt_of_lt room)
    have read := ih (Nat.lt_of_succ_lt_succ room) fun other member =>
      clean other (List.mem_cons_of_mem _ member)
    obtain ⟨no_quote, fine | rfl⟩ := clean c List.mem_cons_self
    · simp [readLiteralLines?, closing?, no_quote, lineEnd?_none fine, fine, read, withChar]
    · simp [readLiteralLines?, closing?, lineEnd?, read, withChar]

section

variable {quote : Char} {between : List Char → List Char → Prop}
  {reader : Nat → List Char → Option (List Char × List Char)}
  (ends : ∀ {limit chars closed}, closing? quote chars = some closed →
    reader (limit + 1) chars = some closed)
  (passes : ∀ {limit chars}, closing? quote (quote :: chars) = none →
    reader (limit + 1) (quote :: chars) = (reader limit chars).map (withChar quote))

include ends in
theorem reader_closing {run rest : List Char}
    (few : run = [] ∨ run = [quote] ∨ run = [quote, quote]) (ended : rest.head? ≠ some quote)
    {limit : Nat} (room : 0 < limit) :
    reader limit (run ++ quote :: quote :: quote :: rest) = some (run, rest) := by
  obtain ⟨limit, rfl⟩ := Nat.exists_eq_add_one.mpr room
  exact ends (closing?_end few ended)

include passes in
theorem reader_run {run chars : List Char} {c : Char} {read : List Char × List Char}
    (few : run = [quote] ∨ run = [quote, quote]) (apart : c ≠ quote)
    (later : ∀ limit, (c :: chars).length < limit → reader limit (c :: chars) = some read)
    {limit : Nat} (room : (run ++ c :: chars).length < limit) :
    reader limit (run ++ c :: chars) = some (run ++ read.1, read.2) := by
  have one {limit : Nat} (room : (quote :: c :: chars).length < limit) :
      reader limit (quote :: c :: chars) = some (quote :: read.1, read.2) := by
    obtain ⟨limit, rfl⟩ := Nat.exists_eq_add_one.mpr (Nat.zero_lt_of_lt room)
    have opened : closing? quote (quote :: c :: chars) = none :=
      @closing?_none quote c [quote] chars (.inr (.inl rfl)) apart
    rw [passes opened, later limit (Nat.lt_of_succ_lt_succ room)]
    rfl
  rcases few with rfl | rfl
  · exact one room
  · obtain ⟨limit, rfl⟩ := Nat.exists_eq_add_one.mpr (Nat.zero_lt_of_lt room)
    have opened : closing? quote (quote :: quote :: c :: chars) = none :=
      @closing?_none quote c [quote, quote] chars (.inr (.inr rfl)) apart
    have read : reader (limit + 1) (quote :: quote :: c :: chars) = _ := passes opened
    rw [one (Nat.lt_of_succ_lt_succ room)] at read
    exact read

include ends passes in
/-- A reader of strings over several lines reads quotes, and what it reads between them, up to the
three that close the string. -/
theorem Runs.read {s text : List Char} (runs : Runs quote between s text)
    (reads : ∀ {s text tail : List Char} {read : List Char × List Char} {limit : Nat},
      between s text → (∀ limit, tail.length < limit → reader limit tail = some read) →
      (text ++ tail).length < limit → reader limit (text ++ tail) = some (s ++ read.1, read.2))
    {rest : List Char} (ended : rest.head? ≠ some quote) {limit : Nat}
    (room : (text ++ quote :: quote :: quote :: rest).length < limit) :
    reader limit (text ++ quote :: quote :: quote :: rest) = some (s, rest) := by
  have closes (limit : Nat) (room : 0 < limit) :
      reader limit (quote :: quote :: quote :: rest) = some ([], rest) :=
    reader_closing ends (.inl rfl) ended room
  induction runs generalizing limit with
  | last only =>
    have read := reads only (fun limit room => closes limit (Nat.zero_lt_of_lt room)) room
    rwa [List.append_nil] at read
  | @quotes s text run s' text' before few apart _ ih =>
    rw [List.append_assoc, List.append_assoc] at room ⊢
    refine @reads s text _ (run ++ s', rest) limit before (fun limit room => ?_) room
    cases text' with
    | nil =>
      -- nothing is read but the closing quotes, so nothing stands between them and the run
      have read := ih (Nat.lt_succ_self _)
      rw [List.nil_append, closes _ (Nat.succ_pos _)] at read
      obtain rfl : [] = s' := (Prod.mk.inj (Option.some.inj read)).1
      rw [List.append_nil]
      exact reader_closing ends (.inr few) ended (Nat.zero_lt_of_lt room)
    | cons c more =>
      have apart : c ≠ quote := by simpa using apart
      exact reader_run passes few apart (fun limit room => ih room) room

end

theorem readBasicLines?_runs {s text rest : List Char} (runs : Runs '"' (Escaped LinePlain) s text)
    (ended : rest.head? ≠ some '"') {limit : Nat}
    (room : (text ++ '"' :: '"' :: '"' :: rest).length < limit) :
    readBasicLines? limit (text ++ '"' :: '"' :: '"' :: rest) = some (s, rest) := by
  refine runs.read ?_ ?_ (fun before later => readBasicLines?_escaped before later) ended room
  · intro limit chars closed closes
    simp [readBasicLines?, closes]
  · intro limit chars closes
    simp [readBasicLines?, closes, lineEnd?, isControl]

theorem readLiteralLines?_runs {s text rest : List Char} (runs : Runs '\'' Verbatim s text)
    (ended : rest.head? ≠ some '\'') {limit : Nat}
    (room : (text ++ '\'' :: '\'' :: '\'' :: rest).length < limit) :
    readLiteralLines? limit (text ++ '\'' :: '\'' :: '\'' :: rest) = some (s, rest) := by
  refine runs.read ?_ ?_ (fun before later => readLiteralLines?_verbatim before later) ended room
  · intro limit chars closed closes
    simp [readLiteralLines?, closes]
  · intro limit chars closes
    simp [readLiteralLines?, closes, lineEnd?, isControl]

/-! ### Strings of every kind -/

theorem Escaped.head_ne {s text : List Char} (escaped : Escaped Plain s text) :
    text.head? ≠ some '"' := by
  cases escaped with
  | nil => simp
  | raw stands rest => simpa using stands.2.1
  | letter means rest => simp
  | short code rest => simp
  | long code rest => simp

theorem lineEnd?_eq_none_iff {c d : Char} {rest : List Char} :
    lineEnd? (c :: d :: rest) = none ↔ c ≠ '\n' ∧ ¬(c = '\r' ∧ d = '\n') := by
  unfold lineEnd?
  split <;> simp_all

theorem lineEnd?_append {quote : Char} (fine : isControl quote = false) {text : List Char}
    (none_there : lineEnd? text = none) (rest : List Char) :
    lineEnd? (text ++ quote :: rest) = none := by
  have no_feed : quote ≠ '\n' := by rintro rfl; simp [isControl] at fine
  match text with
  | [] => exact lineEnd?_none fine rest
  | [c] =>
    refine lineEnd?_eq_none_iff.mpr ⟨?_, fun ⟨_, feed⟩ => no_feed feed⟩
    rintro rfl
    cases none_there
  | c :: d :: more => exact lineEnd?_eq_none_iff.mpr (lineEnd?_eq_none_iff.mp none_there)

theorem dropFirstLineEnd_opening {opening text rest : List Char} {quote : Char}
    (fine : isControl quote = false)
    (opens : opening = ['\n'] ∨ opening = [] ∧ lineEnd? text = none) :
    dropFirstLineEnd (opening ++ (text ++ quote :: rest)) = text ++ quote :: rest := by
  rcases opens with rfl | ⟨rfl, none_there⟩
  · rfl
  · rw [List.nil_append, dropFirstLineEnd, lineEnd?_append fine none_there]
    rfl

/-- Where no quote follows, a quote that closes a string at once does not open one of three. -/
theorem not_three {quote : Char} {text rest : List Char} (apart : text.head? ≠ some quote)
    (ended : rest.head? ≠ some quote) (more : List Char) :
    text ++ quote :: rest ≠ quote :: quote :: more := by
  intro shape
  cases text with
  | nil => simp_all
  | cons c text => simp_all

/-- A string is read back, in whatever way it is written. -/
theorem readString?_quoted {s text : List Char} (quoted : Quoted s text) {rest : List Char}
    (ended : rest.head? ≠ some '"' ∧ rest.head? ≠ some '\'') :
    readString? (text ++ rest) = some (String.ofList s, rest) := by
  cases quoted with
  | @basic text escaped =>
    have three := not_three escaped.head_ne ended.1
    simp only [List.cons_append, List.append_assoc, List.nil_append]
    rw [readString?]
    · rw [readBasic?_escaped escaped rest]
      rfl
    · intro more shape
      exact three more shape
  | literal clean =>
    have apart : s.head? ≠ some '\'' := fun quote =>
      (clean '\'' (List.mem_of_head? quote)).2 rfl
    have three := not_three apart ended.2
    simp only [List.cons_append, List.append_assoc, List.nil_append]
    rw [readString?]
    · rw [readLiteral?_clean clean rest]
      rfl
    · intro more shape
      exact three more shape
  | basicLines runs opens =>
    simp only [List.cons_append, List.append_assoc, List.nil_append, readString?]
    rw [dropFirstLineEnd_opening (by decide) opens, readBasicLines?_runs runs ended.1 ?_]
    · rfl
    · simp only [List.length_append, List.length_cons]
      omega
  | literalLines runs opens =>
    simp only [List.cons_append, List.append_assoc, List.nil_append, readString?]
    rw [dropFirstLineEnd_opening (by decide) opens,
      readLiteralLines?_runs runs ended.2 ?_]
    · rfl
    · simp only [List.length_append, List.length_cons]
      omega

/-! ### Writing -/

theorem codeChar?_small : ∀ n < 128,
    codeChar? ['0', '0', hexDigit (n / 16), hexDigit (n % 16)] = some (Char.ofNat n) := by
  decide

theorem codeChar?_control {c : Char} (control : isControl c = true) :
    codeChar? ['0', '0', hexDigit (c.toNat / 16), hexDigit (c.toNat % 16)] = some c := by
  have small : c.toNat < 128 := by
    simp [isControl] at control
    omega
  rw [codeChar?_small c.toNat small, Char.ofNat_toNat]

theorem Escaped.escapeChar {s text : List Char} (rest : Escaped Plain s text) (c : Char) :
    Escaped Plain (c :: s) (escapeChar c ++ text) := by
  unfold Toml.escapeChar
  split
  case h_8 no_quote no_slash _ _ _ _ _ =>
    split
    · rename_i control
      exact .short (codeChar?_control control) rest
    · rename_i fine
      exact .raw ⟨by simpa using fine, no_quote, no_slash⟩ rest
  all_goals exact .letter rfl rest

theorem printString_quoted (s : String) : Quoted s.toList (printString s) := by
  refine .basic ?_
  induction s.toList with
  | nil => exact .nil
  | cons c rest ih =>
    rw [List.flatMap_cons]
    exact ih.escapeChar c

end CommandChain.Toml
