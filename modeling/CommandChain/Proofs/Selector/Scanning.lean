import CommandChain.Proofs.Computation
import CommandChain.Proofs.Selector.Reading
import CommandChain.Proofs.Selector.Scanner

/-!
The scanner at a place that the reader knows as the characters that are left. Between such places it
slices between characters, and the operations it is made of go from one such place to another.
-/
namespace CommandChain.Selector

theorem byteLength_append (chars rest : List Char) :
    byteLength (chars ++ rest) = byteLength chars + byteLength rest := by
  induction chars with
  | nil => simp [byteLength]
  | cons c chars ih => simp [byteLength, ih, Nat.add_assoc]

theorem byteLength_pos {chars : List Char} (nonempty : chars ≠ []) : 0 < byteLength chars := by
  cases chars with
  | nil => exact absurd rfl nonempty
  | cons c chars => exact Nat.add_pos_left c.utf8Size_pos _

theorem utf8ByteSize_ofList (chars : List Char) :
    (String.ofList chars).utf8ByteSize = byteLength chars := by
  induction chars with
  | nil => rfl
  | cons c chars ih =>
    rw [← List.singleton_append, String.ofList_append, String.utf8ByteSize_append, ih]
    simp [byteLength]

theorem size_toByteArray_ofList (chars : List Char) :
    (String.ofList chars).toByteArray.size = byteLength chars := by
  rw [String.size_toByteArray, utf8ByteSize_ofList]

theorem boundary_append (before after : List Char) :
    Boundary (String.ofList (before ++ after)) (byteLength before) := by
  constructor
  · rw [utf8ByteSize_ofList, byteLength_append]
    exact Nat.le_add_right _ _
  · refine String.Pos.Raw.isValid_iff_exists_append.mpr
      ⟨String.ofList before, String.ofList after, String.ofList_append, ?_⟩
    rw [String.Pos.Raw.ext_iff, String.byteIdx_rawEndPos, utf8ByteSize_ofList]

theorem slice?_append (before chars after : List Char) :
    slice? (String.ofList (before ++ (chars ++ after))) (byteLength before)
      (byteLength before + byteLength chars) = some (String.ofList chars) := by
  have starts := boundary_append before (chars ++ after)
  have stops := boundary_append (before ++ chars) after
  rw [List.append_assoc, byteLength_append] at stops
  rw [slice?, dif_pos ⟨Nat.le_add_right _ _, starts, stops⟩, Option.some_inj,
    ← String.toByteArray_inj]
  simp only [String.toByteArray_extract, String.offset_pos, String.ofList_append,
    String.toByteArray_append]
  exact (ByteArray.extract_append_size_add' (i := 0) (size_toByteArray_ofList before).symm).trans
    (ByteArray.extract_append_eq_left (size_toByteArray_ofList chars).symm)

namespace Cursor

theorem skipWhile_eq_self {p : Char → Bool} {c : Cursor} (ends : Ends p c.rest) :
    c.skipWhile p = c := by
  rw [skipWhile, ends.takeWhile, ends.dropWhile, byteLength, Nat.add_zero]

theorem skipWhile_next {p : Char → Bool} {c : Cursor} {char : Char} {rest : List Char}
    (shape : c.rest = char :: rest) (part : p char = true) :
    c.next.skipWhile p = c.skipWhile p := by
  simp [skipWhile, next, shape, part, byteLength, Nat.add_assoc]

theorem skipWhile_of_run_empty {p : Char → Bool} {c : Cursor} (empty : c.run p = "") :
    c.skipWhile p = c := by
  have whole := c.run_append p
  rw [String.ofList_eq_empty_iff.1 empty, List.nil_append] at whole
  refine skipWhile_eq_self ?_
  rw [whole]
  exact c.skipWhile_ends p

theorem skipWhile_length_lt {p : Char → Bool} {c : Cursor} (nonempty : c.run p ≠ "") :
    (c.skipWhile p).rest.length < c.rest.length := by
  have whole := congrArg List.length (c.run_append p)
  have := List.length_pos_iff.2 (mt String.ofList_eq_empty_iff.2 nonempty)
  rw [List.length_append] at whole
  omega

theorem next_offset {c : Cursor} {char : Char} {rest : List Char} (shape : c.rest = char :: rest) :
    c.next.offset = c.offset + char.utf8Size := by
  rw [next, shape]

/-- A place of a text: the characters that are left are those after some of its characters. -/
def Inside (text : String) (c : Cursor) : Prop :=
  ∃ before, text.toList = before ++ c.rest ∧ c.offset = byteLength before

def finish (text : String) : Cursor := ⟨text.utf8ByteSize, []⟩

theorem start_inside (text : String) : (start text).Inside text := ⟨[], rfl, rfl⟩

theorem finish_inside (text : String) : (finish text).Inside text := by
  refine ⟨text.toList, (List.append_nil _).symm, ?_⟩
  rw [finish, ← utf8ByteSize_ofList, String.ofList_toList]

namespace Inside

variable {text : String} {c d : Cursor} {chars rest : List Char}

theorem advance (inside : c.Inside text) (split : c.rest = chars ++ rest) :
    Inside text ⟨c.offset + byteLength chars, rest⟩ := by
  obtain ⟨before, whole, offset⟩ := inside
  refine ⟨before ++ chars, ?_, ?_⟩
  · rw [whole, split, List.append_assoc]
  · rw [offset, byteLength_append]

theorem skipWhile (inside : c.Inside text) (p : Char → Bool) : (c.skipWhile p).Inside text :=
  inside.advance (c.run_append p)

theorem next (inside : c.Inside text) : c.next.Inside text := by
  cases shape : c.rest with
  | nil => rwa [Cursor.next, shape]
  | cons char rest =>
    have split : c.rest = [char] ++ rest := shape
    have advanced := inside.advance split
    rwa [Cursor.next, shape]

theorem offset_eq (inside : c.Inside text) (inside' : d.Inside text)
    (split : c.rest = chars ++ d.rest) : d.offset = c.offset + byteLength chars := by
  obtain ⟨before, whole, offset⟩ := inside
  obtain ⟨before', whole', offset'⟩ := inside'
  have same : before ++ chars ++ d.rest = before' ++ d.rest := by
    rw [List.append_assoc, ← split, ← whole, whole']
  rw [offset', ← List.append_cancel_right same, byteLength_append, offset]

theorem boundary (inside : c.Inside text) : Boundary text c.offset := by
  obtain ⟨before, whole, offset⟩ := inside
  rw [offset, ← String.ofList_toList (s := text), whole]
  exact boundary_append before c.rest

theorem slice? (inside : c.Inside text) (inside' : d.Inside text)
    (split : c.rest = chars ++ d.rest) :
    slice? text c.offset d.offset = some (String.ofList chars) := by
  rw [inside.offset_eq inside' split]
  obtain ⟨before, whole, offset⟩ := inside
  rw [offset, ← String.ofList_toList (s := text), whole, split]
  exact slice?_append before chars d.rest

theorem offset_lt (inside : c.Inside text) (inside' : d.Inside text)
    (shorter : d.rest.length < c.rest.length) : c.offset < d.offset := by
  have suffix (e : Cursor) (insideE : e.Inside text) : e.rest <:+ text.toList := by
    obtain ⟨before, whole, -⟩ := insideE
    exact ⟨before, whole.symm⟩
  obtain ⟨chars, split⟩ :=
    List.suffix_of_suffix_length_le (suffix d inside') (suffix c inside)
      (Nat.le_of_lt shorter)
  have nonempty : chars ≠ [] := by
    rintro rfl
    rw [← split] at shorter
    exact Nat.lt_irrefl _ shorter
  have := byteLength_pos nonempty
  have := inside.offset_eq inside' split.symm
  omega

theorem offset_lt_finish (inside : c.Inside text) :
    c.offset < text.utf8ByteSize ↔ c.rest ≠ [] := by
  have finish := inside.offset_eq (finish_inside text) (List.append_nil _).symm
  change text.utf8ByteSize = _ at finish
  constructor
  · rintro before empty
    rw [empty, byteLength] at finish
    omega
  · intro nonempty
    have := byteLength_pos nonempty
    omega

end Inside

end Cursor

namespace Scan

open Cursor

variable {σ α β : Type} {text : String} {c d : Cursor} {finish : Option Cursor}

/-- What a scan came to, for the result of a computation. A value leaves the scanner at `finish`. -/
inductive Answers (text : String) (finish : Option Cursor) :
    EStateM.Result SelectorError σ α → Except Stop α → Scanner σ → Prop where
  | value {a : α} {s : σ} {visits : List Visit} {d : Cursor} (reached : finish = some d)
      (inside : d.Inside text) (sound : ∀ visit ∈ visits, visit.Sound text) :
    Answers text finish (.ok a s) (.ok a) ⟨d.offset, visits, s⟩
  | error {e : SelectorError} {s : σ} {stop : Stop} {place : Nat} {visits : List Visit}
      (reports : stop.Reports text e) (sound : ∀ visit ∈ visits, visit.Sound text) :
    Answers text finish (.error e s) (.error stop) ⟨place, visits, s⟩

/-- From a place of the text the scan ends, and comes to what the computation comes to. -/
def Performs (text : String) (c : Cursor) (x : Scan σ α) (goal : Evaluation σ α)
    (finish : Option Cursor) : Prop :=
  c.Inside text → ∀ (s : σ) (visits : List Visit), (∀ visit ∈ visits, visit.Sound text) →
    ∃ outcome ended, x ⟨c.offset, visits, s⟩ = some (outcome, ended) ∧
      Answers text finish (goal s) outcome ended

/-- From one place to another the scan asks nothing of the environment. -/
abbrev Reads (text : String) (c : Cursor) (x : Scan σ α) (a : α) (d : Cursor) : Prop :=
  Performs text c x (pure a) (some d)

theorem bind_of_ok {x : Scan σ α} {f : α → Scan σ β} {scanner after : Scanner σ} {a : α}
    (ran : x scanner = some (.ok a, after)) : (x >>= f) scanner = f a after := by
  change Option.bind (x scanner) _ = _
  rw [ran]
  rfl

theorem bind_of_error {x : Scan σ α} {f : α → Scan σ β} {scanner after : Scanner σ} {stop : Stop}
    (ran : x scanner = some (.error stop, after)) :
    (x >>= f) scanner = some (.error stop, after) := by
  change Option.bind (x scanner) _ = _
  rw [ran]
  rfl

namespace Performs

theorem bind {x : Scan σ α} {f : α → Scan σ β} {goal : Evaluation σ α} {goal' : α → Evaluation σ β}
    {middle : Option Cursor} (first : Performs text c x goal middle)
    (second : ∀ a d, middle = some d → Performs text d (f a) (goal' a) finish) :
    Performs text c (x >>= f) (goal >>= goal') finish := by
  intro inside s visits sound
  obtain ⟨outcome, ended, ran, answers⟩ := first inside s visits sound
  rw [bind_apply]
  generalize goal s = result at answers
  cases answers with
  | value reached inside' sound' =>
    rw [bind_of_ok ran]
    exact second _ _ reached inside' _ _ sound'
  | error reports sound' => exact ⟨_, _, bind_of_error ran, .error reports sound'⟩

theorem of_inside {x : Scan σ α} {goal : Evaluation σ α}
    (performs : c.Inside text → Performs text c x goal finish) : Performs text c x goal finish :=
  fun inside => performs inside inside

theorem pure (a : α) : Performs text c (pure a : Scan σ α) (pure a) (some c) :=
  fun inside _ _ sound => ⟨_, _, rfl, .value rfl inside sound⟩

theorem raised (e : SelectorError) :
    Performs text c (throw (.raised e) : Scan σ α) (throw e) finish :=
  fun _ _ _ sound => ⟨_, _, rfl, .error rfl sound⟩

theorem fail (reason : String) :
    Performs text c (fail reason : Scan σ α) (raiseFault text (faultAt c reason)) finish :=
  fun inside _ _ sound => ⟨_, _, rfl, .error ⟨rfl, inside.boundary⟩ sound⟩

theorem ask (question : Evaluation σ α) : Performs text c (ask question) question (some c) := by
  intro inside s visits sound
  unfold Scan.ask
  cases question s with
  | ok a s' => exact ⟨_, _, rfl, .value rfl inside sound⟩
  | error e s' => exact ⟨_, _, rfl, .error rfl sound⟩

theorem bind_fault {x : Scan σ α} {f : α → Scan σ β} {fault : Fault}
    (first : Performs text c x (raiseFault text fault) none) :
    Performs text c (x >>= f) (raiseFault text fault) finish := by
  change Performs text c (x >>= f) (raiseFault text fault >>= fun _ : α => raiseFault text fault) _
  refine first.bind ?_
  rintro _ _ ⟨⟩

end Performs

theorem Reads.bind {x : Scan σ α} {f : α → Scan σ β} {a : α} {goal : Evaluation σ β}
    (first : Reads text c x a d) (second : Performs text d (f a) goal finish) :
    Performs text c (x >>= f) goal finish := by
  intro inside s visits sound
  obtain ⟨outcome, ended, ran, answers⟩ := first inside s visits sound
  change Answers text (some d) (.ok a s) outcome ended at answers
  cases answers with
  | value reached inside' sound' =>
    cases reached
    rw [bind_of_ok ran]
    exact second inside' _ _ sound'

theorem reads_place : Reads text c (place : Scan σ Nat) c.offset c :=
  fun inside _ _ sound => ⟨_, _, rfl, .value rfl inside sound⟩

theorem reads_goTo (inside' : d.Inside text) : Reads text c (goTo d.offset : Scan σ Unit) () d :=
  fun _ _ _ sound => ⟨_, _, rfl, .value rfl inside' sound⟩

theorem reads_note {visit : Visit} (sound' : visit.Sound text) :
    Reads text c (note visit : Scan σ Unit) () c := by
  intro inside s visits sound
  refine ⟨_, _, rfl, .value rfl inside ?_⟩
  intro noted member
  cases member with
  | head => exact sound'
  | tail _ member => exact sound noted member

theorem reads_began {visit : Nat → Nat → Visit} {earlier : Option Nat} {start : Nat}
    (sound : ∀ place ∈ earlier, (visit place start).Sound text) :
    Reads text c (began visit earlier start : Scan σ Unit) () c := by
  cases earlier with
  | none => exact .pure ()
  | some place => exact reads_note (sound place rfl)

end Scan

namespace Source

open Cursor Scan

variable {σ : Type} {source : Source σ} {c : Cursor}

theorem reads_slice {first last : Cursor} {chars : List Char} (inside : first.Inside source.text)
    (inside' : last.Inside source.text) (split : first.rest = chars ++ last.rest) :
    Reads source.text c (source.slice first.offset last.offset) (String.ofList chars) c := by
  have ordered : first.offset ≤ last.offset := by
    have := inside.offset_eq inside' split
    omega
  refine Reads.bind (reads_note ⟨ordered, inside.boundary, inside'.boundary⟩) ?_
  rw [inside.slice? inside' split]
  exact .pure _

theorem reads_peek : Reads source.text c source.peek c.rest.head? c := by
  refine .of_inside fun inside => reads_place.bind ?_
  have split : c.rest = c.rest ++ (finish source.text).rest := (List.append_nil _).symm
  refine (reads_slice inside (finish_inside source.text) split).bind ?_
  rw [String.toList_ofList]
  exact .pure _

theorem reads_bump {char : Char} {rest : List Char} (shape : c.rest = char :: rest) :
    Reads source.text c source.bump (some char) c.next := by
  refine .of_inside fun inside => reads_peek.bind ?_
  rw [shape, List.head?_cons]
  refine reads_place.bind ?_
  rw [← next_offset shape]
  exact (reads_goTo inside.next).bind (.pure _)

theorem reads_bump_end (shape : c.rest = []) :
    Reads source.text c source.bump none c := by
  refine reads_peek.bind ?_
  rw [shape]
  exact .pure _

theorem reads_eat {expected : Char} {rest : List Char} (shape : c.rest = expected :: rest) :
    Reads source.text c (source.eat expected) true c.next := by
  refine reads_peek.bind ?_
  rw [shape, List.head?_cons, if_pos rfl]
  exact (reads_bump shape).bind (.pure _)

theorem reads_eat_other {expected : Char} (other : ∀ rest, c.rest ≠ expected :: rest) :
    Reads source.text c (source.eat expected) false c := by
  have unequal : c.rest.head? ≠ some expected := by
    intro same
    obtain ⟨rest, shape⟩ := List.head?_eq_some_iff.1 same
    exact other rest shape
  refine reads_peek.bind ?_
  rw [if_neg unequal]
  exact .pure _

theorem reads_passWhile (p : Char → Bool) (c : Cursor) :
    Reads source.text c (source.passWhile p) () (c.skipWhile p) := by
  rw [passWhile]
  refine reads_peek.bind ?_
  cases shape : c.rest with
  | nil =>
    have ends : Ends p c.rest := by
      rw [shape]
      rintro _ ⟨⟩
    rw [skipWhile_eq_self ends]
    exact .pure ()
  | cons char rest =>
    rw [List.head?_cons, Option.any_some]
    by_cases part : p char = true
    · have shorter := next_length_lt shape
      rw [if_pos part, ← skipWhile_next shape part]
      exact (reads_bump shape).bind (reads_passWhile p c.next)
    · have ends : Ends p c.rest := by
        rintro _ first
        cases (shape ▸ first : _ ∈ (char :: rest).head?)
        exact Bool.eq_false_iff.2 part
      rw [if_neg part, skipWhile_eq_self ends]
      exact .pure ()
termination_by c.rest.length

theorem reads_name : Reads source.text c source.name (c.run isNamePart)
    (c.skipWhile isNamePart) := by
  refine .of_inside fun inside => reads_place.bind ((reads_passWhile isNamePart c).bind ?_)
  exact reads_place.bind (reads_slice inside (inside.skipWhile _) (c.run_append _))

theorem reads_qualifiedName {name : String} {d : Later c} (named : readName c = .ok (name, d)) :
    Reads source.text c source.qualifiedName name d.val := by
  refine .of_inside fun inside => reads_place.bind (reads_name.bind ?_)
  unfold readName at named
  simp only [past] at named
  split at named
  · cases named
  rename_i nonempty
  rw [if_neg nonempty]
  split at named
  · rename_i shape
    by_cases empty' : (c.skipWhile isNamePart).next.run isNamePart = ""
    · simp [empty'] at named
    simp only [empty', if_false] at named
    cases named
    refine (reads_eat shape).bind (reads_name.bind ?_)
    rw [if_neg empty']
    have split : c.rest = (c.rest.takeWhile isNamePart ++
        ':' :: (c.skipWhile isNamePart).next.rest.takeWhile isNamePart) ++
        ((c.skipWhile isNamePart).next.skipWhile isNamePart).rest := by
      rw [List.append_assoc, List.cons_append, ← run_append, next_rest shape, ← shape,
        ← run_append]
    have whole : c.run isNamePart ++ ":" ++ (c.skipWhile isNamePart).next.run isNamePart =
        String.ofList (c.rest.takeWhile isNamePart ++
          ':' :: (c.skipWhile isNamePart).next.rest.takeWhile isNamePart) := by
      simp [run, String.append_assoc]
    rw [whole]
    exact reads_place.bind (reads_slice inside ((inside.skipWhile _).next.skipWhile _) split)
  · rename_i other
    cases named
    refine (reads_eat_other other).bind ?_
    exact reads_place.bind (reads_slice inside (inside.skipWhile _) (c.run_append _))

theorem faults_qualifiedName {fault : Fault} (named : readName c = .error fault) :
    Performs source.text c source.qualifiedName (raiseFault source.text fault) none := by
  refine reads_place.bind (reads_name.bind ?_)
  unfold readName at named
  simp only [past] at named
  split at named
  · rename_i empty
    cases named
    rw [if_pos empty]
    exact .fail _
  rename_i nonempty
  rw [if_neg nonempty]
  split at named
  · rename_i shape
    by_cases empty' : (c.skipWhile isNamePart).next.run isNamePart = ""
    · simp only [empty', if_true] at named
      cases named
      refine (reads_eat shape).bind (reads_name.bind ?_)
      rw [if_pos empty']
      exact .fail _
    · simp [empty'] at named
  · cases named

theorem performs_quoted {quote : Char} (oneByte : quote.utf8Size = 1) {first : Cursor}
    (inside : first.Inside source.text) (c : Cursor)
    (same : first.skipWhile (· ≠ quote) = c.skipWhile (· ≠ quote)) :
    Performs source.text c (source.quoted quote first.offset)
      ((bare (readQuoted quote first)).1.evaluate source.text source.subject source.env)
      (bare (readQuoted quote first)).2 := by
  rw [quoted]
  cases shape : c.rest with
  | nil =>
    have ends : c.skipWhile (· ≠ quote) = c := by
      refine skipWhile_eq_self ?_
      rw [shape]
      rintro _ ⟨⟩
    refine (reads_bump_end shape).bind ?_
    simp only [bare_readQuoted, same, ends, shape, Expr.evaluate]
    exact .fail _
  | cons char rest =>
    refine (reads_bump shape).bind ?_
    dsimp only
    by_cases closing : char = quote
    · have ends : c.skipWhile (· ≠ quote) = c := by
        refine skipWhile_eq_self ?_
        rw [shape, closing]
        rintro _ ⟨⟩
        simp
      -- The quote that closes the text is the last byte before the place.
      have here : c.next.offset - 1 = (first.skipWhile (· ≠ quote)).offset := by
        rw [same, ends, next_offset shape, closing, oneByte, Nat.add_sub_cancel]
      rw [if_pos closing]
      refine reads_place.bind ?_
      rw [here]
      refine (reads_slice inside (inside.skipWhile _) (first.run_append _)).bind ?_
      simp only [bare_readQuoted, same, ends, shape, Expr.evaluate]
      exact .pure _
    · have shorter := next_length_lt shape
      rw [if_neg closing]
      refine performs_quoted oneByte inside c.next ?_
      rw [same, skipWhile_next shape (by simpa using closing)]
termination_by c.rest.length

theorem performs_number :
    Performs source.text c source.number
      ((bare (readNumber c)).1.evaluate source.text source.subject source.env)
      (bare (readNumber c)).2 := by
  refine .of_inside fun inside => ?_
  obtain ⟨sign, chars, signed, inside', split, whole⟩ : ∃ sign chars,
      Reads source.text c (source.eat '-') sign (afterSign c).2 ∧
        (afterSign c).2.Inside source.text ∧
        c.rest = chars ++ ((afterSign c).2.skipWhile isNumberPart).rest ∧
        (afterSign c).1 ++ (afterSign c).2.run isNumberPart = String.ofList chars := by
    unfold afterSign
    split
    · rename_i shape
      refine ⟨true, _, reads_eat shape, inside.next, ?_, (String.ofList_append).symm⟩
      simpa [shape, next_rest shape] using c.next.run_append isNumberPart
    · rename_i unsigned
      refine ⟨false, _, reads_eat_other unsigned, inside, c.run_append _, ?_⟩
      simp [run]
  refine reads_place.bind (signed.bind ((reads_passWhile isNumberPart _).bind ?_))
  refine reads_place.bind ((reads_slice inside (inside'.skipWhile _) split).bind ?_)
  simp only [bare_readNumber, whole]
  cases numberValue? (String.ofList chars) with
  | some value =>
    simp only [Expr.evaluate]
    exact .pure _
  | none =>
    simp only [Expr.evaluate]
    exact .fail _

theorem follow_cons (text : String) (value : Value) (name : String) (steps : Steps) :
    (follow text value ⟨name :: steps.names, steps.fault⟩ : Evaluation σ Value) =
      match navigate value name with
      | .ok inner => follow text inner steps
      | .error e => throw e := by
  unfold follow
  rw [navigateAll]
  cases navigate value name <;> rfl

/-- After a name the steps go on as they do after a value. -/
theorem bare_readSteps_more {c : Cursor} (nonempty : c.run isNamePart ≠ "") :
    bare (readSteps c) = Prod.map
      (fun steps => ⟨c.run isNamePart :: steps.names, steps.fault⟩) id
      (bare (readMoreSteps (c.skipWhile isNamePart))) := by
  rw [bare_readSteps, if_neg nonempty, bare_readMoreSteps]
  split <;> rfl

mutual

theorem performs_moreSteps (value : Value) (c : Cursor) (previous : Option Nat)
    (further : ∀ place ∈ previous, place < c.offset) :
    Performs source.text c (source.steps value false previous)
      (follow source.text value (bare (readMoreSteps c)).1) (bare (readMoreSteps c)).2 := by
  rw [steps]
  refine reads_place.bind ((reads_began further).bind ?_)
  rw [if_neg Bool.false_ne_true, bare_readMoreSteps]
  split
  · rename_i shape
    have shorter := next_length_lt shape
    refine (reads_eat shape).bind (performs_step value c.next c.offset ?_)
    rw [next_offset shape]
    exact Nat.le_add_right _ _
  · rename_i other
    exact (reads_eat_other other).bind (.pure value)
termination_by c.rest.length

theorem performs_step (value : Value) (c : Cursor) (start : Nat) (le : start ≤ c.offset) :
    Performs source.text c (source.step value start)
      (follow source.text value (bare (readSteps c)).1) (bare (readSteps c)).2 := by
  rw [step]
  refine .of_inside fun inside => reads_name.bind ?_
  by_cases empty : c.run isNamePart = ""
  · rw [if_pos empty, bare_readSteps, if_pos empty, skipWhile_of_run_empty empty]
    exact .fail _
  have shorter := skipWhile_length_lt empty
  rw [if_neg empty, bare_readSteps_more empty]
  dsimp only [Prod.map]
  rw [follow_cons]
  cases navigate value (c.run isNamePart) with
  | error e => exact .raised e
  | ok inner =>
    refine performs_moreSteps inner _ _ ?_
    rintro _ ⟨⟩
    exact Nat.lt_of_le_of_lt le (inside.offset_lt (inside.skipWhile _) shorter)
termination_by c.rest.length

end

theorem performs_steps (value : Value) (c : Cursor) :
    Performs source.text c (source.steps value true none)
      (follow source.text value (bare (readSteps c)).1) (bare (readSteps c)).2 := by
  rw [steps]
  refine reads_place.bind (Reads.bind (.pure ()) ?_)
  rw [if_pos rfl]
  exact performs_step value c c.offset (Nat.le_refl _)

end Source

end CommandChain.Selector
