import CommandChain.Proofs.ComponentScopes

/-!
What is read where a variable was declared. Components come first in a lookup: a name under which a
component of another scope is registered can be declared, but is looked up further out first, where
another registry may not have it. Any other name that can be declared reads back as it was declared
for as long as it is neither declared again nor removed, in the node and in every view of it.
-/
namespace CommandChain

variable {I H : Type}

namespace Context

def LooksAt (view ctx : Context I H) : Prop :=
  view = ctx ∨ ∃ id subject, view = ⟨{ ctx.node with id, subject, owner := false }, ctx.ancestors⟩

/-- What is read of a name that is no component of a context's own scope: what is declared, unless a
component is registered under the name; then what the parent reads, if there is one, and what is
declared if that is nothing. -/
def reads (ctx : Context I H) (name : QName) (declared : Option Value) (w : World I H) :
    Except ResolveError (Option Value) :=
  match ctx.registry.descriptor? name, ctx.parent? with
  | none, _ => .ok declared
  | some d, none => .error (.componentOutOfReach name d.scope)
  | some _, some outer =>
    (outcomeOf (outer.get (.qualified name) none w)).1.map (·.or declared)

section

variable {view ctx : Context I H} {name : QName} {w : World I H}

theorem get_reads (live : w.isReleased ctx = false)
    (foreign : ctx.registry.descriptorIn? name ctx.scope = none) :
    (outcomeOf (ctx.get (.qualified name) none w)).1 =
      ctx.reads name (OrderedMap.find? (w.tableOf ctx).declared name) w := by
  change (outcomeOf (Resolve.lookup [] ctx name w)).1 = _
  unfold reads parent?
  cases registered : ctx.registry.descriptor? name with
  | none =>
    rw [Resolve.lookup_unregistered live registered]
    rfl
  | some d =>
    have apart : d.scope ≠ ctx.scope := by
      simpa [Registry.descriptorIn?, registered] using foreign
    cases around : ctx.ancestors with
    | nil =>
      rw [Resolve.lookup_out_of_reach live registered apart around]
      rfl
    | cons node rest =>
      have resolves : w.Resolves (outcomeOf (Resolve.lookup [] ⟨node, rest⟩ name w)).2 :=
        World.get_resolves w ⟨node, rest⟩ (.qualified name) none
      rw [Resolve.lookup_outer live registered apart around]
      change _ = (outcomeOf (Resolve.lookup [] ⟨node, rest⟩ name w)).1.map _
      generalize Resolve.lookup [] ⟨node, rest⟩ name w = answer at resolves ⊢
      rcases answer with ⟨_ | value, w'⟩ | ⟨error, w'⟩
      · -- the variables that are read then are those of before
        have same : (w'.tableOf ctx).declared = (w.tableOf ctx).declared := resolves.declared _
        exact congrArg (fun declared => Except.ok (OrderedMap.find? declared name)) same
      · rfl
      · rfl

theorem LooksAt.tableOf (looks : view.LooksAt ctx) : w.tableOf view = w.tableOf ctx := by
  rcases looks with rfl | ⟨id, subject, rfl⟩ <;> rfl

theorem LooksAt.get_reads (looks : view.LooksAt ctx) (live : w.isReleased ctx = false)
    (foreign : ctx.registry.descriptorIn? name ctx.scope = none) :
    (outcomeOf (view.get (.qualified name) none w)).1 =
      ctx.reads name (OrderedMap.find? (w.tableOf ctx).declared name) w := by
  rcases looks with rfl | ⟨id, subject, rfl⟩
  · exact Context.get_reads live foreign
  · exact @Context.get_reads I H ⟨{ ctx.node with id, subject, owner := false }, ctx.ancestors⟩
      name w live foreign

theorem LooksAt.undeclares (looks : view.LooksAt ctx) {value : Value}
    (live : w.isReleased ctx = false)
    (declared : OrderedMap.find? (w.tableOf ctx).declared name = some value)
    (once : (OrderedMap.keys (w.tableOf ctx).declared).Nodup) :
    ∃ w', view.undeclare (.qualified name) none w = .ok (some value) w' ∧
      w'.isReleased ctx = false ∧ OrderedMap.find? (w'.tableOf ctx).declared name = none := by
  have removes : view.undeclare (.qualified name) none w = _ := undeclareHere_apply view name w
  have there : (w.changeVariables view (OrderedMap.erase · name)).tableOf ctx =
      { w.tableOf ctx with declared := OrderedMap.erase (w.tableOf ctx).declared name } := by
    rw [← looks.tableOf, World.changeVariables, World.tableOf, World.table_changeTable, if_pos rfl,
      ← World.tableOf, looks.tableOf]
  rw [World.isReleased, looks.tableOf, declared] at removes
  refine ⟨_, removes.trans (if_neg (ne_true_of_eq_false live)), ?_, ?_⟩
  · rw [World.isReleased, there]
    exact live
  · rw [there]
    exact OrderedMap.find?_erase_self once name

end

theorem of_declare {ctx : Context I H} {name : QName} {value : Value} {w : World I H}
    (declares : (outcomeOf (ctx.declare (.qualified name) value none w)).1 = .ok ()) :
    ctx.registry.descriptorIn? name ctx.scope = none ∧
      OrderedMap.find? ((outcomeOf (ctx.declare (.qualified name) value none w)).2.tableOf
        ctx).declared name = some value := by
  have outcome : ctx.declare (.qualified name) value none w = _ :=
    declareHere_apply ctx name value w
  split at outcome
  · rw [outcome] at declares
    cases declares
  · split at outcome
    · rw [outcome] at declares
      cases declares
    · rename_i foreign
      refine ⟨by simpa using foreign, ?_⟩
      rw [outcome]
      change OrderedMap.find? ((w.changeVariables ctx _).table ctx.node.table).declared name = _
      rw [World.changeVariables, World.table_changeTable, if_pos rfl]
      exact OrderedMap.find?_insert_self _ name value

end Context

namespace Session

variable {s t : Session I H} {ctx : Context I H} {name : QName} {value : Value}

/-- Whether an interaction is about nothing but what the embedder knows, and neither declares nor
removes the variable of a name in a table. -/
def SparesVariable (table : Nat) (name : QName) (s : Session I H) (interaction : Interaction I H) :
    Prop :=
  s.Knows interaction ∧ interaction.written? s.run.world ≠ some (table, name)

theorem Leads.knows {table : Nat} (leads : Leads (SparesVariable table name) s t) :
    Leads Knows s t :=
  leads.mono fun _ _ spares => spares.1

theorem Leads.declared {table : Nat} (reached : Reached Knows s)
    (below : table < s.run.world.tables.next) (leads : Leads (SparesVariable table name) s t) :
    OrderedMap.find? (t.run.world.table table).declared name =
      OrderedMap.find? (s.run.world.table table).declared name ∧
    table < t.run.world.tables.next := by
  induction leads with
  | refl => exact ⟨rfl, below⟩
  | step before spares ih =>
    have here := reached.leads before.knows
    have course := here.known_housed.course spares.1
    exact ⟨(course.declared ih.2 spares.2).trans ih.1, Nat.lt_of_lt_of_le ih.2 course.nextTable⟩

/-- A variable that was declared is read, in the context that it was declared in and in every view
of it, until it is declared again or removed, unless a component of another scope is registered
under its name and the parent has it, or there is none. Its removal tells its value, which is read
no more. -/
theorem declared_reads_back (reached : Reached Knows s) (among : ctx ∈ s.known)
    (declares : (outcomeOf (ctx.declare (.qualified name) value none s.run.world)).1 = .ok ())
    (leads : Leads (SparesVariable ctx.node.table name)
      (s.after (.asks (.declare ctx (.qualified name) value none))) t)
    (live : t.run.world.isReleased ctx = false) (view : Context I H) (looks : view.LooksAt ctx) :
    (outcomeOf (view.get (.qualified name) none t.run.world)).1 =
      ctx.reads name (some value) t.run.world ∧
    ∃ w', view.undeclare (.qualified name) none t.run.world = .ok (some value) w' ∧
      ∀ other : Context I H, other.LooksAt ctx →
        (outcomeOf (other.get (.qualified name) none w')).1 = ctx.reads name none w' := by
  have knows : s.Knows (.asks (.declare ctx (.qualified name) value none)) := fun other same => by
    cases same
    exact among
  have declaring := reached.leads (.step .refl knows)
  have housed := reached.known_housed
  have below := Nat.lt_of_lt_of_le (housed.handles.houses ctx among).table
    (housed.later knows).nextTable
  obtain ⟨foreign, there⟩ := Context.of_declare declares
  have kept := (leads.declared declaring below).1.trans there
  have once := (declaring.leads leads.knows).once ctx.node.table
  constructor
  · rw [looks.get_reads live foreign]
    exact congrArg (fun declared => ctx.reads name declared t.run.world) kept
  · obtain ⟨w', removes, live', gone⟩ := looks.undeclares live kept once
    refine ⟨w', removes, fun other looks' => ?_⟩
    rw [looks'.get_reads live' foreign, gone]

/-! ### A variable beside a component -/

def plainName : QName := ⟨"urn:sample", "plain"⟩

def otherName : QName := ⟨"urn:sample", "other"⟩

/-- A variable is declared, another one beside it, and a component is made. -/
def declaredSession : Session Unit Unit :=
  accountSession.play [.asks (.declare accountChild (.qualified plainName) (.int 5) none),
    .asks (.declare accountView (.qualified otherName) (.int 6) none),
    .asks (.component accountGlobal account.name)]

theorem declared_reads_back_in_view :
    accountView.LooksAt accountChild ∧
      (outcomeOf (accountView.get (.qualified plainName) none declaredSession.run.world)).1 =
        .ok (some (.int 5)) ∧
      ∃ w', accountView.undeclare (.qualified plainName) none declaredSession.run.world =
          .ok (some (.int 5)) w' ∧
        (outcomeOf (accountChild.get (.qualified plainName) none w')).1 = .ok none := by
  have among : accountChild ∈ accountSession.known := .tail _ List.mem_cons_self
  have leads : Leads (SparesVariable 1 plainName)
      (accountSession.after (.asks (.declare accountChild (.qualified plainName) (.int 5) none)))
      declaredSession := by
    refine Permits.leads ⟨⟨?_, by decide⟩, ⟨?_, nofun⟩, trivial⟩
    · rintro _ ⟨⟩
      exact List.mem_cons_self
    · rintro _ ⟨⟩
      exact .tail _ (.tail _ List.mem_cons_self)
  have looks : accountView.LooksAt accountChild := .inr ⟨2, .int 2, rfl⟩
  obtain ⟨read, w', removes, gone⟩ :=
    declared_reads_back reached_accountSession among rfl leads rfl accountView looks
  exact ⟨looks, read, w', removes, gone accountChild (.inl rfl)⟩

theorem declared_under_component_unread :
    Reached Knows accountSession ∧ accountChild ∈ accountSession.known ∧
      accountSession.run.world.isReleased accountChild = false ∧
      (outcomeOf (accountChild.declare (.qualified account.name) (.int 5) none
        accountSession.run.world)).1 = .ok () ∧
      (outcomeOf (accountChild.get (.qualified account.name) none
        (accountSession.after (.asks (.declare accountChild (.qualified account.name) (.int 5)
          none))).run.world)).1 = .ok (some (.component ⟨0, "Account"⟩)) := by
  refine ⟨reached_accountSession, .tail _ List.mem_cons_self, rfl, rfl, ?_⟩
  change (outcomeOf (Resolve.lookup [] accountChild account.name _)).1 = _
  rw [Resolve.lookup_outer rfl rfl (by decide : account.scope ≠ accountChild.scope) rfl,
    Resolve.lookup_own rfl rfl rfl]
  rfl

end Session
end CommandChain
