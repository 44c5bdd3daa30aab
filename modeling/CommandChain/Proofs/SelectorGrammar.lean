import CommandChain.Proofs.Computation
import CommandChain.Proofs.Selector.Soundness

/-!
Selectors are evaluated exactly as their grammar says. A text of a tree is evaluated to the meaning
of the tree, in value and error, and with what the environment is asked on the way; every other text
has no value, whatever the subject and the environment.
-/
namespace CommandChain

/-- A computation that ends with an error, if it ends. -/
def Never {ε σ α : Type} (x : EStateM ε σ α) : Prop := ∀ (s s' : σ) (a : α), x s ≠ .ok a s'

namespace Never

variable {ε σ α β : Type}

theorem of_throw (e : ε) : Never (throw e : EStateM ε σ α) := by
  rintro s s' a ⟨⟩

theorem of_first {x : EStateM ε σ α} (never : Never x) (f : α → EStateM ε σ β) :
    Never (x >>= f) := by
  intro s s' b
  rw [bind_apply]
  cases ran : x s with
  | ok a middle => exact absurd ran (never s middle a)
  | error e middle => simp

theorem of_second (x : EStateM ε σ α) {f : α → EStateM ε σ β} (never : ∀ a, Never (f a)) :
    Never (x >>= f) := by
  intro s s' b
  rw [bind_apply]
  cases x s with
  | ok a middle => exact never a middle s' b
  | error e middle => simp

end Never

namespace Selector

open Cursor

theorem readSteps_fault {c : Cursor} {steps : Steps} (read : bare (readSteps c) = (steps, none)) :
    ∃ fault, steps.fault = some fault := by
  rw [bare_readSteps] at read
  split at read
  · cases read
    exact ⟨_, rfl⟩
  split at read
  · rename_i shape
    have shorter : (c.skipWhile isNamePart).next.rest.length < c.rest.length :=
      Nat.lt_of_lt_of_le (next_length_lt shape) (c.skipWhile_length_le _)
    cases read' : bare (readSteps (c.skipWhile isNamePart).next) with | mk steps' end'
    rw [read'] at read
    cases read
    obtain ⟨fault, faulty⟩ := readSteps_fault read'
    exact ⟨fault, faulty⟩
  · cases read
termination_by c.rest.length

theorem readMoreSteps_fault {c : Cursor} {steps : Steps}
    (read : bare (readMoreSteps c) = (steps, none)) : ∃ fault, steps.fault = some fault := by
  rw [bare_readMoreSteps] at read
  split at read
  · exact readSteps_fault read
  · cases read

section

variable {σ : Type} (text : String) (subject : Value) (env : Environment σ)

theorem follow_never {steps : Steps} {fault : Fault} (faulty : steps.fault = some fault)
    (value : Value) : Never (follow text value steps : Evaluation σ Value) := by
  unfold follow
  split
  · exact .of_throw _
  · rw [faulty]
    exact .of_throw _

theorem subject_never {steps : Steps} {fault : Fault} (faulty : steps.fault = some fault) :
    Never ((Expr.subject steps).evaluate text subject env) := by
  rw [Expr.evaluate]
  exact follow_never text faulty subject

theorem broken_never (fault : Fault) : Never ((Expr.broken fault).evaluate text subject env) := by
  rw [Expr.evaluate]
  exact .of_throw _

theorem readQuoted_never {quote : Char} {c : Cursor} {expr : Expr}
    (read : bare (readQuoted quote c) = (expr, none)) :
    Never (expr.evaluate text subject env) := by
  rw [bare_readQuoted] at read
  split at read
  · cases read
    exact broken_never _ _ _ _
  · cases read

theorem readNumber_never {c : Cursor} {expr : Expr}
    (read : bare (readNumber c) = (expr, none)) : Never (expr.evaluate text subject env) := by
  rw [bare_readNumber] at read
  dsimp only at read
  split at read
  · cases read
  · cases read
    exact broken_never _ _ _ _

mutual

/-- Where reading an expression meets a fault, what was read has no value. -/
theorem readExpr_never {start : Cursor} {expr : Expr}
    (read : bare (readExpr start) = (expr, none)) : Never (expr.evaluate text subject env) := by
  rw [bare_readExpr] at read
  dsimp only at read
  split at read
  · cases read
    exact broken_never _ _ _ _
  rename_i shape
  split at read
  · cases read' : bare (readMoreSteps (start.skipWhile Text.isBlank).next) with | mk steps end'
    rw [read'] at read
    cases read
    obtain ⟨fault, faulty⟩ := readMoreSteps_fault read'
    exact subject_never _ _ _ faulty
  split at read
  · split at read
    · cases read
      exact broken_never _ _ _ _
    rename_i name afterName named
    cases read' : bare (readMoreSteps afterName.val) with | mk steps end'
    rw [read'] at read
    cases read
    obtain ⟨fault, faulty⟩ := readMoreSteps_fault read'
    rw [Expr.evaluate]
    refine .of_second _ fun found => ?_
    cases found with
    | some value => exact follow_never text faulty value
    | none => exact .of_throw _
  split at read
  · exact readQuoted_never _ _ _ read
  split at read
  · exact readNumber_never _ _ _ read
  unfold readNamed at read
  split at read
  · cases read
    exact broken_never _ _ _ _
  rename_i name afterName named
  dsimp only at read
  split at read
  · rename_i opening
    have shorter := opening_shorter afterName opening
    cases read' : bare (readArgs (afterName.val.skipWhile Text.isBlank).next) with | mk args end'
    rw [read'] at read
    cases read
    rw [Expr.evaluate]
    exact .of_first (readArgs_never read') _
  split at read
  · cases read
  · cases read' : bare (readSteps (start.skipWhile Text.isBlank)) with | mk steps end'
    rw [read'] at read
    cases read
    obtain ⟨fault, faulty⟩ := readSteps_fault read'
    exact subject_never _ _ _ faulty
termination_by 3 * start.rest.length

theorem readArgs_never {start : Cursor} {args : Args}
    (read : bare (readArgs start) = (args, none)) : Never (args.evaluate text subject env) := by
  rw [bare_readArgs] at read
  dsimp only at read
  split at read
  · cases read
  · rw [bare_readMoreArgs_blanks] at read
    exact readMoreArgs_never read
termination_by 3 * start.rest.length + 2

theorem readMoreArgs_never {start : Cursor} {args : Args}
    (read : bare (readMoreArgs start) = (args, none)) :
    Never (args.evaluate text subject env) := by
  rw [bare_readMoreArgs] at read
  split at read
  · rename_i arg readArg
    cases read
    rw [Args.evaluate]
    exact .of_first (readExpr_never readArg) _
  rename_i arg afterArg readArg
  dsimp only at read
  split at read
  · cases read
  · rename_i shape
    have shorter := afterArg_shorter (le_of_bare readArg) shape
    cases read' : bare (readMoreArgs (afterArg.skipWhile Text.isBlank).next) with | mk others end'
    rw [read'] at read
    cases read
    rw [Args.evaluate]
    exact .of_second _ fun value => .of_first (readMoreArgs_never read') _
  · cases read
    rw [Args.evaluate]
    refine .of_second _ fun value => .of_first ?_ _
    rw [Args.evaluate]
    exact .of_throw _
termination_by 3 * start.rest.length + 1

end

end

theorem read_eq (text : String) :
    read text = match bare (readExpr (.start text)) with
      | (expr, none) => ⟨expr, none⟩
      | (expr, some d) =>
        ⟨expr, if (d.skipWhile Text.isBlank).rest = [] then none
          else some (faultAt (d.skipWhile Text.isBlank) "unexpected trailing input")⟩ := by
  unfold read
  split <;> rename_i read <;> rw [read]
  · rfl
  · rfl

variable {σ : Type} {text : String} {subject : Value} {env : Environment σ}

theorem read_rendered {tree : Tree} (renders : tree.Renders text.toList) :
    read text = ⟨tree.expr, none⟩ := by
  have nothing : Stops [] := by
    rintro _ ⟨⟩
  have place : (Cursor.start text).rest = text.toList ++ [] := (List.append_nil _).symm
  obtain ⟨d, readTree, finish⟩ := tree.read_rendered renders nothing place
  simp only [read_eq, readTree, finish, if_true]

theorem read_variable (name : QualifiedName) (written : text.toList = '$' :: name.chars) :
    (read text).expr = .var name.text ⟨[], none⟩ := by
  have renders : (Tree.atom (.var name [])).Renders text.toList := by
    have bare := @Tree.Renders.atom (.var name []) [] [] .nil .nil
    simpa [Leaf.chars, stepsChars, written] using bare
  rw [read_rendered renders]
  rfl

theorem evaluate_rendered {tree : Tree} (renders : tree.Renders text.toList) :
    evaluate text subject env = tree.meaning subject env := by
  simp only [evaluate, read_rendered renders, tree.evaluate_expr, bind_pure]

theorem renders_of_evaluate {s s' : σ} {value : Value}
    (ran : evaluate text subject env s = .ok value s') :
    ∃ tree : Tree, tree.Renders text.toList := by
  unfold evaluate at ran
  simp only [read_eq] at ran
  cases readExpr' : bare (readExpr (.start text)) with | mk expr finish
  rw [readExpr'] at ran
  cases finish with
  | none =>
    have never := (readExpr_never text subject env readExpr').of_first pure
    exact absurd ran (never s s' value)
  | some d =>
    by_cases done : (d.skipWhile Text.isBlank).rest = []
    · have nothing : Stops (d.skipWhile Text.isBlank).rest := by
        rw [done]
        rintro _ ⟨⟩
      obtain ⟨tree, rendered, -, renders, place⟩ := readExpr_sound nothing readExpr'
      rw [done, List.append_nil] at place
      obtain rfl : text.toList = rendered := place
      exact ⟨tree, renders⟩
    · simp only [done, if_false] at ran
      have never : Never (expr.evaluate text subject env >>= fun _ =>
          (raiseFault text (faultAt (d.skipWhile Text.isBlank) "unexpected trailing input") :
            Evaluation σ Value)) := .of_second _ fun _ => .of_throw _
      exact absurd ran (never s s' value)

/-- Evaluation is exactly what the grammar says: every text of a tree is evaluated to the meaning of
the tree, and a text with a value is a text of a tree that has the value. -/
theorem evaluate_exactly {σ : Type} (text : String) (subject : Value) (env : Environment σ) :
    (∀ tree : Tree, tree.Renders text.toList →
      evaluate text subject env = tree.meaning subject env) ∧
    ∀ (s s' : σ) (value : Value), evaluate text subject env s = .ok value s' →
      ∃ tree : Tree, tree.Renders text.toList ∧ tree.meaning subject env s = .ok value s' := by
  refine ⟨fun tree renders => evaluate_rendered renders, fun s s' value ran => ?_⟩
  obtain ⟨tree, renders⟩ := renders_of_evaluate ran
  refine ⟨tree, renders, ?_⟩
  rw [← evaluate_rendered renders, ran]

/-- A function that lists its arguments, another that counts them, and no variables. -/
def listing : Environment Unit where
  valueOf _ := pure none
  call name args := pure (if name = "list" then .list args else .int args.length)

def listName : Name := .ascii "list" (by decide) (by decide)

def sizeName : Name := .ascii "size" (by decide) (by decide)

/-- A text in quotes and a call in the arguments of a call. -/
def nestedCall : Tree :=
  .call (.plain listName) (by simp [Name.Leads, QualifiedName.first, listName, Name.ascii]) [
    .atom (.quoted .single ['a'] (by decide)),
    .call (.plain sizeName) (by simp [Name.Leads, QualifiedName.first, sizeName, Name.ascii])
      [.atom (.subject [])]]

theorem nestedCall_renders : nestedCall.Renders "list( 'a' , size(.) )".toList :=
  have space : Blank [' '] := by
    rintro c (_ | ⟨_, ⟨⟩⟩)
    decide
  @Tree.Renders.call _ _ _ [] [] _ [] .nil .nil
    (.more (.atom space space)
      (.one (@Tree.Renders.call _ _ _ [' '] [] _ [' '] space .nil (.one (.atom .nil .nil)) space)))
    .nil

theorem evaluate_nestedCall :
    nestedCall.Renders "list( 'a' , size(.) )".toList ∧
      evaluate "list( 'a' , size(.) )" .null listing () = .ok (.list [.str "a", .int 1]) () ∧
      ∃ tree : Tree, tree.Renders "list( 'a' , size(.) )".toList ∧
        tree.meaning .null listing () = .ok (.list [.str "a", .int 1]) () := by
  have value : evaluate "list( 'a' , size(.) )" .null listing () =
      .ok (.list [.str "a", .int 1]) () := by
    rw [(evaluate_exactly _ .null listing).1 nestedCall nestedCall_renders]
    rfl
  exact ⟨nestedCall_renders, value, (evaluate_exactly _ .null listing).2 () () _ value⟩

end Selector
end CommandChain
