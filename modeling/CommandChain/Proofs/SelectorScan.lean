import CommandChain.Proofs.Selector.Scanning
import CommandChain.Proofs.SelectorGrammar

/-!
A scan of a text always ends, never tears, and comes to what the selector comes to. What it slices
begins and ends between characters, and its faults lie there too. An expression begins further on
than the one it is in, and a round of a loop further on than the one before.
-/
namespace CommandChain.Selector

open Cursor

namespace Source

open Scan

variable {σ : Type} {source : Source σ}

theorem evaluate_item (text : String) (subject : Value) (env : Environment σ) (read : List Value)
    (arg : Expr) (rest : Args) :
    (read ++ ·) <$> (Args.item arg rest).evaluate text subject env =
      arg.evaluate text subject env >>= fun value =>
        (read ++ [value] ++ ·) <$> rest.evaluate text subject env := by
  rw [Args.evaluate]
  simp

theorem performs_named {start : Cursor} (inside : start.Inside source.text)
    (performs : ∀ {c : Cursor}, c.rest.length < start.rest.length →
      Performs source.text c (source.arguments start.offset)
        ((bare (readArgs c)).1.evaluate source.text source.subject source.env)
        (bare (readArgs c)).2) :
    Performs source.text (start.skipWhile Text.isBlank) (source.named start.offset)
      ((readNamed (start.skipWhile Text.isBlank)).1.evaluate source.text source.subject source.env)
      (readNamed (start.skipWhile Text.isBlank)).2 := by
  rw [named, readNamed]
  refine reads_place.bind ?_
  cases named : readName (start.skipWhile Text.isBlank) with
  | error fault =>
    simp only [Expr.evaluate]
    exact (faults_qualifiedName named).bind_fault
  | ok reading =>
    obtain ⟨name, afterName⟩ := reading
    dsimp only
    split
    · rename_i opening
      refine (reads_qualifiedName named).bind ((reads_passWhile _ _).bind ?_)
      refine (reads_eat opening).bind ?_
      simp only [if_true, Prod.map, Expr.evaluate]
      refine (performs (opening_shorter afterName opening)).bind ?_
      intro values d reached
      rw [id, reached]
      exact .ask _
    · rename_i other
      refine (reads_qualifiedName named).bind ((reads_passWhile _ _).bind ?_)
      refine (reads_eat_other other).bind ?_
      rw [if_neg Bool.false_ne_true]
      cases wordValue? name with
      | some value =>
        simp only [Expr.evaluate]
        exact .pure value
      | none =>
        -- The scan goes back to where the name began, a place it has been at.
        simp only [Prod.map, Expr.evaluate]
        exact (reads_goTo (inside.skipWhile _)).bind (performs_steps source.subject _)

mutual

theorem performs_expression (start : Cursor) (outer : Option Nat)
    (further : ∀ place ∈ outer, place < start.offset) :
    Performs source.text start (source.expression outer)
      ((bare (readExpr start)).1.evaluate source.text source.subject source.env)
      (bare (readExpr start)).2 := by
  rw [expression, bare_readExpr]
  refine .of_inside fun inside => reads_place.bind ((reads_began further).bind ?_)
  refine (reads_passWhile _ _).bind (reads_peek.bind ?_)
  dsimp only
  cases shape : (start.skipWhile Text.isBlank).rest with
  | nil =>
    simp only [List.head?_nil, Expr.evaluate]
    exact .fail _
  | cons char tail =>
    rw [List.head?_cons]
    dsimp only
    split
    · refine (reads_bump shape).bind ?_
      simp only [Prod.map, Expr.evaluate]
      rw [bare_readMoreSteps]
      split
      · rename_i slash
        exact (reads_eat slash).bind (performs_steps source.subject _)
      · rename_i other
        exact (reads_eat_other other).bind (.pure source.subject)
    split
    · refine (reads_bump shape).bind ?_
      cases named : readName (start.skipWhile Text.isBlank).next with
      | error fault =>
        simp only [Expr.evaluate]
        exact (faults_qualifiedName named).bind_fault
      | ok reading =>
        obtain ⟨name, afterName⟩ := reading
        refine (reads_qualifiedName named).bind ?_
        simp only [Prod.map, Expr.evaluate]
        refine Performs.bind (.ask _) ?_
        rintro (_ | value) d ⟨⟩
        · exact .raised _
        · exact performs_moreSteps value _ none (by rintro _ ⟨⟩)
    split
    · rename_i quoted
      have oneByte : char.utf8Size = 1 := by
        obtain rfl | rfl := quoted <;> rfl
      refine (reads_bump shape).bind (reads_place.bind ?_)
      exact performs_quoted oneByte (inside.skipWhile _).next _ rfl
    split
    · exact performs_number
    · exact performs_named inside fun shorter =>
        .of_inside fun inside' => performs_arguments _ _ (inside.offset_lt inside' shorter)
termination_by 3 * start.rest.length

theorem performs_arguments (start : Cursor) (outer : Nat) (further : outer < start.offset) :
    Performs source.text start (source.arguments outer)
      ((bare (readArgs start)).1.evaluate source.text source.subject source.env)
      (bare (readArgs start)).2 := by
  rw [arguments, bare_readArgs]
  refine (reads_passWhile _ _).bind ?_
  dsimp only
  split
  · rename_i shape
    refine (reads_eat shape).bind ?_
    simp only [if_true, Args.evaluate]
    exact .pure _
  · rename_i other
    refine (reads_eat_other other).bind ?_
    rw [if_neg Bool.false_ne_true]
    have le := start.skipWhile_length_le Text.isBlank
    have later : outer < (start.skipWhile Text.isBlank).offset := Nat.lt_add_right _ further
    have performs := performs_argument _ outer [] none later (by rintro _ ⟨⟩)
    simpa using performs
termination_by 3 * start.rest.length + 2

theorem performs_argument (start : Cursor) (outer : Nat) (read : List Value)
    (previous : Option Nat) (further : outer < start.offset)
    (further' : ∀ place ∈ previous, place < start.offset) :
    Performs source.text start (source.argument outer read previous)
      ((read ++ ·) <$> (bare (readMoreArgs start)).1.evaluate source.text source.subject source.env)
      (bare (readMoreArgs start)).2 := by
  rw [argument, bare_readMoreArgs]
  refine .of_inside fun inside => reads_place.bind ((reads_began further').bind ?_)
  have performs := performs_expression start (some outer) (by rintro _ ⟨⟩; exact further)
  cases readArg : bare (readExpr start) with | mk arg finish
  rw [readArg] at performs
  cases finish with
  | none =>
    dsimp only
    rw [evaluate_item]
    refine performs.bind ?_
    rintro _ _ ⟨⟩
  | some afterArg =>
    dsimp only
    split
    · rename_i shape
      rw [evaluate_item]
      refine performs.bind ?_
      rintro value _ ⟨⟩
      refine (reads_passWhile _ _).bind ((reads_eat shape).bind ?_)
      simp only [if_true, Args.evaluate, map_pure, List.append_nil]
      exact .pure _
    · rename_i shape
      have shorter := afterArg_shorter (le_of_bare readArg) shape
      simp only [Prod.map]
      rw [evaluate_item]
      refine performs.bind ?_
      rintro value _ ⟨⟩
      refine (reads_passWhile _ _).bind (Reads.bind (reads_eat_other ?_) ?_)
      · simp [shape]
      rw [if_neg Bool.false_ne_true]
      refine (reads_eat shape).bind (.of_inside fun inside' => ?_)
      have later := inside.offset_lt inside' shorter
      refine performs_argument _ outer _ _ (Nat.lt_trans further later) ?_
      rintro _ ⟨⟩
      exact later
    · rename_i notClosed notComma
      rw [evaluate_item]
      refine performs.bind ?_
      rintro value _ ⟨⟩
      refine (reads_passWhile _ _).bind ((reads_eat_other notClosed).bind ?_)
      rw [if_neg Bool.false_ne_true]
      refine (reads_eat_other notComma).bind ?_
      simp only [Args.evaluate]
      exact .fail _
termination_by 3 * start.rest.length + 1

end

theorem performs_scan (source : Source σ) : ∃ finish,
    Performs source.text (.start source.text) source.scan
      (evaluate source.text source.subject source.env) finish := by
  have performs : Performs source.text (.start source.text) (source.expression none) _ _ :=
    performs_expression (.start source.text) none (by rintro _ ⟨⟩)
  unfold evaluate scan
  simp only [read_eq]
  cases readExpr' : bare (readExpr (.start source.text)) with | mk expr finish
  rw [readExpr'] at performs
  cases finish with
  | none =>
    refine ⟨none, performs.bind ?_⟩
    rintro _ _ ⟨⟩
  | some d =>
    refine ⟨some (d.skipWhile Text.isBlank), performs.bind ?_⟩
    rintro value _ ⟨⟩
    refine (reads_passWhile _ _).bind (.of_inside fun inside => reads_place.bind ?_)
    simp only [inside.offset_lt_finish, ne_eq, ite_not]
    split
    · exact .pure value
    · exact .fail _

end Source

/-- The scan of a whole text ends, with what evaluation ends with. It slices between characters,
where its faults lie too, and begins nothing before it has gone on from what that is in and from
what came before it. -/
theorem scanned_between_characters {σ : Type} (text : String) (subject : Value)
    (env : Environment σ) (s : σ) :
    ∃ outcome ended, Source.scan ⟨text, subject, env⟩ ⟨0, [], s⟩ = some (outcome, ended) ∧
      (∀ visit ∈ ended.visits, visit.Sound text) ∧
      match evaluate text subject env s with
      | .ok value s' => outcome = .ok value ∧ ended.host = s'
      | .error e s' => (∃ stop, outcome = .error stop ∧ stop.Reports text e) ∧ ended.host = s' := by
  obtain ⟨finish, performs⟩ := Source.performs_scan ⟨text, subject, env⟩
  have none : ∀ visit ∈ ([] : List Visit), visit.Sound text := by
    rintro _ ⟨⟩
  obtain ⟨outcome, ended, scanned, answers⟩ := performs (start_inside text) s [] none
  refine ⟨outcome, ended, scanned, ?_⟩
  generalize evaluate text subject env s = result at answers
  cases answers with
  | value _ _ sound => exact ⟨sound, rfl, rfl⟩
  | error reports sound => exact ⟨sound, ⟨_, rfl, reports⟩, rfl⟩

end CommandChain.Selector
