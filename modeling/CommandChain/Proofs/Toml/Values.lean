import CommandChain.Proofs.Selector.Reading
import CommandChain.Proofs.Toml.Strings
import CommandChain.Toml.Reader

/-!
How values are written in documents: strings in any of their ways, whole numbers in decimal digits,
and truth values by their names. A value is read back wherever nothing follows that could belong to
it.
-/
namespace CommandChain.Toml

open Selector (Ends)

def truthWord : Bool → List Char
  | true => ['t', 'r', 'u', 'e']
  | false => ['f', 'a', 'l', 's', 'e']

theorem toString_truth (b : Bool) : (toString b).toList = truthWord b := by cases b <;> rfl

/-- The ways to write a string, a whole number, or a truth value. -/
inductive Spelled : Value → List Char → Prop where
  | string {s text} (quoted : Quoted s text) : Spelled (.string (String.ofList s)) text
  | whole {n : Nat} (fits : n < powerOfTwo 63) :
    Spelled (.scalar (.integer n)) (Nat.toDigits 10 n)
  | truth (b : Bool) : Spelled (.scalar (.boolean b)) (truthWord b)

/-- The characters that may stand right behind a value in a line of its own. -/
def isBoundary (c : Char) : Bool := isLineBlank c || c = '#' || c = '\n' || c = '\r'

/-- Whether a text goes on with such a character or not at all. -/
def Bounded (rest : List Char) : Prop := ∀ c ∈ rest.head?, isBoundary c = true

theorem Bounded.ends {rest : List Char} (bounded : Bounded rest) {p : Char → Bool}
    (outside : ∀ c, isBoundary c = true → p c = false) : Ends p rest := fun c first =>
  outside c (bounded c first)

theorem boundary_cases {c : Char} (boundary : isBoundary c = true) :
    c = ' ' ∨ c = '\t' ∨ c = '#' ∨ c = '\n' ∨ c = '\r' := by
  simpa [isBoundary, isLineBlank, or_assoc] using boundary

theorem Bounded.head_ne {rest : List Char} (bounded : Bounded rest) {c : Char}
    (outside : isBoundary c = false) : rest.head? ≠ some c := by
  intro first
  rw [bounded c first] at outside
  cases outside

theorem boundary_outside_word (c : Char) (boundary : isBoundary c = true) :
    isWordPart c = false := by
  rcases boundary_cases boundary with rfl | rfl | rfl | rfl | rfl <;> decide

/-! ### Whole numbers -/

theorem digits_isDigit {n : Nat} {c : Char} (member : c ∈ Nat.toDigits 10 n) :
    c.isDigit = true := by
  exact Nat.isDigit_of_mem_toDigits (by decide) (by decide) member

theorem basedNumber_append (base : Nat) (digits : List Char) (c : Char) :
    basedNumber base (digits ++ [c]) = basedNumber base digits * base + digitValue c := by
  simp [basedNumber]

theorem digitValue_digitChar : ∀ n < 10, digitValue (Nat.digitChar n) = n := by decide

theorem basedNumber_toDigits (n : Nat) : basedNumber 10 (Nat.toDigits 10 n) = n := by
  induction n using Nat.strongRecOn with
  | ind n ih =>
    rw [Nat.toDigits_eq_if (by decide)]
    split
    · rename_i small
      simp [basedNumber, digitValue_digitChar n small]
    · rename_i large
      have last := digitValue_digitChar (n % 10) (Nat.mod_lt n (by decide))
      rw [basedNumber_append, ih (n / 10) (by omega), last]
      omega

theorem toDigits_ne_nil (n : Nat) : Nat.toDigits 10 n ≠ [] := by
  rw [Nat.toDigits_eq_if (by decide)]
  split <;> simp

theorem digitChar_zero : ∀ n < 10, Nat.digitChar n = '0' → n = 0 := by decide

theorem head_toDigits {n : Nat} (zero : (Nat.toDigits 10 n).head? = some '0') : n = 0 := by
  induction n using Nat.strongRecOn with
  | ind n ih =>
    rw [Nat.toDigits_eq_if (by decide)] at zero
    split at zero
    · rename_i small
      exact digitChar_zero n small (Option.some.inj zero)
    · rename_i large
      obtain ⟨c, rest, shape⟩ := List.exists_cons_of_ne_nil (toDigits_ne_nil (n / 10))
      rw [shape, List.cons_append, List.head?_cons] at zero
      have none_left := ih (n / 10) (by omega) (by rw [shape, List.head?_cons, zero])
      omega

theorem groupedDigits?_digits {digits : List Char} (some_digit : digits ≠ [])
    (all : ∀ c ∈ digits, c.isDigit = true) : groupedDigits? Char.isDigit digits = some digits := by
  induction digits with
  | nil => exact absurd rfl some_digit
  | cons c rest ih =>
    have first := all c List.mem_cons_self
    have later := fun d member => all d (List.mem_cons_of_mem c member)
    cases rest with
    | nil => simp [groupedDigits?, first]
    | cons d rest =>
      have no_line : d ≠ '_' := by rintro rfl; cases later '_' List.mem_cons_self
      rw [groupedDigits?]
      · simp [first, ih (List.cons_ne_nil d rest) later]
      · simp
      · intro more shape
        exact no_line (List.cons.inj shape).1

theorem plainDigits?_toDigits (n : Nat) :
    plainDigits? (Nat.toDigits 10 n) = some (Nat.toDigits 10 n) := by
  have grouped := groupedDigits?_digits (toDigits_ne_nil n) fun c => digits_isDigit
  have single : ¬((Nat.toDigits 10 n).head? = some '0' ∧ 1 < (Nat.toDigits 10 n).length) := by
    rintro ⟨zero, long⟩
    rw [head_toDigits zero] at long
    exact absurd long (by decide)
  rw [plainDigits?, grouped, Option.bind_some, if_neg single]

theorem integer?_toDigits {n : Nat} (fits : n < powerOfTwo 63) :
    integer? (Nat.toDigits 10 n) = some (n : Int) := by
  have digit := @digits_isDigit n
  have plain := plainDigits?_toDigits n
  have value := basedNumber_toDigits n
  have decimal : decimalInteger? (Nat.toDigits 10 n) = some (n : Int) := by
    have unsigned : splitSign (Nat.toDigits 10 n) = (false, Nat.toDigits 10 n) := by
      unfold splitSign
      split
      · rename_i rest shape
        cases @digit '-' (by simp [shape])
      · rename_i rest shape
        cases @digit '+' (by simp [shape])
      · rfl
    simp [decimalInteger?, unsigned, plain, value, inRange?, fits]
  unfold integer?
  split
  · rename_i rest shape
    cases @digit 'x' (by simp [shape])
  · rename_i rest shape
    cases @digit 'o' (by simp [shape])
  · rename_i rest shape
    cases @digit 'b' (by simp [shape])
  · exact decimal

/-! ### Words -/

theorem scalar?_toDigits {n : Nat} (fits : n < powerOfTwo 63) :
    scalar? (Nat.toDigits 10 n) = some (.integer n) := by
  have digit := @digits_isDigit n
  unfold scalar?
  split
  · rename_i shape
    cases @digit 't' (by simp [shape])
  split
  · rename_i shape
    cases @digit 'f' (by simp [shape])
  simp [integer?_toDigits fits]

theorem afterDate?_digits {digits : List Char} (all : ∀ c ∈ digits, c.isDigit = true) :
    afterDate? digits = none := by
  have no_dash : after? '-' (digits.drop 4) = none := by
    cases shape : digits.drop 4 with
    | nil => rfl
    | cons c rest =>
      have digit := all c (List.mem_of_mem_drop (by rw [shape]; exact List.mem_cons_self))
      have differ : c ≠ '-' := by rintro rfl; cases digit
      simp [after?, differ]
  unfold afterDate? fixedNumber?
  split
  · cases digitsValue? (digits.take 4) with
    | none => rfl
    | some year => simp [no_dash]
  · rfl

theorem splitWord_bounded {word rest : List Char} (parts : ∀ c ∈ word, isWordPart c = true)
    (no_date : afterDate? word ≠ some []) (bounded : Bounded rest) :
    splitWord (word ++ rest) = (word, rest) := by
  have ends := bounded.ends boundary_outside_word
  have taken : (word ++ rest).takeWhile isWordPart = word := by
    rw [List.takeWhile_append_of_pos parts, ends.takeWhile, List.append_nil]
  have dropped : (word ++ rest).dropWhile isWordPart = rest := by
    rw [List.dropWhile_append_of_pos parts, ends.dropWhile]
  simp only [splitWord, taken, dropped]
  split
  · rw [if_neg fun date => no_date date.1]
  · rfl

theorem readScalar?_bounded {word rest : List Char} {scalar : Scalar}
    (reads : scalar? word = some scalar) (parts : ∀ c ∈ word, isWordPart c = true)
    (no_date : afterDate? word ≠ some []) (bounded : Bounded rest) :
    readScalar? (word ++ rest) = some (scalar, rest) := by
  rw [readScalar?, splitWord_bounded parts no_date bounded]
  simp [reads]

theorem readScalar?_toDigits {n : Nat} (fits : n < powerOfTwo 63) {rest : List Char}
    (bounded : Bounded rest) :
    readScalar? (Nat.toDigits 10 n ++ rest) = some (.integer n, rest) := by
  refine readScalar?_bounded (scalar?_toDigits fits) (fun c member => ?_) ?_ bounded
  · simp [isWordPart, Char.isAlphanum, digits_isDigit member]
  · simp [afterDate?_digits fun c => digits_isDigit]

theorem readScalar?_truth (b : Bool) {rest : List Char} (bounded : Bounded rest) :
    readScalar? (truthWord b ++ rest) = some (.boolean b, rest) := by
  have parts : (truthWord b).all isWordPart = true := by cases b <;> rfl
  cases b
  · exact readScalar?_bounded rfl (List.all_eq_true.mp parts) (by decide) bounded
  · exact readScalar?_bounded rfl (List.all_eq_true.mp parts) (by decide) bounded

/-! ### Values -/

/-- The characters that a value opens with if it is not a single word. -/
def isOpening (c : Char) : Bool := c = '"' || c = '\'' || c = '[' || c = '{'

theorem readValue?_word {c : Char} (word : isOpening c = false) (depth : Nat) (chars : List Char) :
    readValue? depth (c :: chars) =
      (readScalar? (c :: chars)).map fun (scalar, rest) => (.scalar scalar, rest) := by
  simp only [isOpening, Bool.or_eq_false_iff, decide_eq_false_iff_not] at word
  obtain ⟨⟨⟨no_double, no_single⟩, no_bracket⟩, no_brace⟩ := word
  rw [readValue?] <;> simp_all

theorem digit_not_opening {c : Char} (digit : c.isDigit = true) : isOpening c = false := by
  refine Bool.eq_false_iff.mpr fun opening => ?_
  simp only [isOpening, Bool.or_eq_true, decide_eq_true_eq] at opening
  rcases opening with ((rfl | rfl) | rfl) | rfl <;> cases digit

theorem Quoted.opens {s text : List Char} (quoted : Quoted s text) :
    ∃ rest, text = '"' :: rest ∨ text = '\'' :: rest := by
  cases quoted with
  | basic => exact ⟨_, .inl rfl⟩
  | literal => exact ⟨_, .inr rfl⟩
  | basicLines => exact ⟨_, .inl rfl⟩
  | literalLines => exact ⟨_, .inr rfl⟩

/-- A value is read back, in whatever way it is written. -/
theorem readValue?_spelled {value : Value} {text : List Char} (spelled : Spelled value text)
    {rest : List Char} (bounded : Bounded rest) (depth : Nat) :
    readValue? depth (text ++ rest) = some (value, rest) := by
  cases spelled with
  | string quoted =>
    have ended : rest.head? ≠ some '"' ∧ rest.head? ≠ some '\'' :=
      ⟨bounded.head_ne (by decide), bounded.head_ne (by decide)⟩
    have read := readString?_quoted quoted ended
    obtain ⟨more, rfl | rfl⟩ := quoted.opens
    · rw [List.cons_append] at read ⊢
      rw [readValue?, read]
      rfl
    · rw [List.cons_append] at read ⊢
      rw [readValue?, read]
      rfl
  | @whole n fits =>
    have read := readScalar?_toDigits fits bounded
    obtain ⟨c, more, shape⟩ := List.exists_cons_of_ne_nil (toDigits_ne_nil n)
    have digit : c.isDigit = true := digits_isDigit (n := n) (by rw [shape]; exact .head _)
    rw [shape, List.cons_append] at read ⊢
    rw [readValue?_word (digit_not_opening digit), read]
    rfl
  | truth b =>
    have read := readScalar?_truth b bounded
    cases b
    · rw [truthWord, List.cons_append] at read ⊢
      rw [readValue?_word (by decide), read]
      rfl
    · rw [truthWord, List.cons_append] at read ⊢
      rw [readValue?_word (by decide), read]
      rfl

end CommandChain.Toml
