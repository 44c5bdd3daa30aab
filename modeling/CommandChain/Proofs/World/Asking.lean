import CommandChain.Proofs.World.Instances

/-!
What computations ask of others. A selector asks its environment for the values of variables, one
after the other; an instance that is made has the selectors of its points evaluated, one after the
other. `Asks` and `Feeds` say what is asked, and of which state. That is all there is: computations
whose questions are answered alike end alike.
-/
namespace CommandChain

/-! ### Computations that end alike -/

/-- Whether two computations ended with the same and left related states. -/
structure Matches {ε σ τ α : Type} (R : σ → τ → Prop) (x : EStateM.Result ε σ α)
    (y : EStateM.Result ε τ α) : Prop where
  outcome : (outcomeOf y).1 = (outcomeOf x).1
  state : R (outcomeOf x).2 (outcomeOf y).2

namespace Matches

variable {ε ε' σ τ α β : Type} {R : σ → τ → Prop} {s : σ} {t : τ}

theorem of_ok {a : α} (state : R s t) :
    Matches R (.ok a s : EStateM.Result ε σ α) (.ok a t) := ⟨rfl, state⟩

theorem of_error {e : ε} (state : R s t) :
    Matches R (.error e s : EStateM.Result ε σ α) (.error e t) := ⟨rfl, state⟩

theorem cases {x : EStateM.Result ε σ α} {y : EStateM.Result ε τ α} (alike : Matches R x y) :
    (∃ a s t, x = .ok a s ∧ y = .ok a t ∧ R s t) ∨
      ∃ e s t, x = .error e s ∧ y = .error e t ∧ R s t := by
  obtain ⟨outcome, state⟩ := alike
  rcases x with ⟨a, s⟩ | ⟨e, s⟩ <;> rcases y with ⟨b, t⟩ | ⟨f, t⟩ <;> cases outcome
  · exact .inl ⟨a, s, t, rfl, rfl, state⟩
  · exact .inr ⟨e, s, t, rfl, rfl, state⟩

theorem eq {x y : EStateM.Result ε σ α} (alike : Matches Eq x y) : y = x := by
  rcases alike.cases with ⟨a, s, t, rfl, rfl, rfl⟩ | ⟨e, s, t, rfl, rfl, rfl⟩ <;> rfl

theorem refl (x : EStateM.Result ε σ α) : Matches Eq x x := ⟨rfl, rfl⟩

theorem of_modifyGet {change : σ → α × σ} {change' : τ → α × τ}
    (same : (change' t).1 = (change s).1) (state : R (change s).2 (change' t).2) :
    Matches R ((modifyGet change : EStateM ε σ α) s) ((modifyGet change' : EStateM ε τ α) t) :=
  ⟨congrArg Except.ok same, state⟩

theorem bind {x : EStateM ε σ α} {y : EStateM ε τ α} {f : α → EStateM ε σ β}
    {g : α → EStateM ε τ β} (first : Matches R (x s) (y t))
    (second : ∀ a s' t', x s = .ok a s' → y t = .ok a t' → R s' t' →
      Matches R (f a s') (g a t')) : Matches R ((x >>= f) s) ((y >>= g) t) := by
  rw [bind_apply, bind_apply]
  rcases first.cases with ⟨a, s', t', left, right, state⟩ | ⟨e, s', t', left, right, state⟩ <;>
    rw [left, right]
  · exact second a s' t' left right state
  · exact .of_error state

theorem map {x : EStateM ε σ α} {y : EStateM ε τ α} (alike : Matches R (x s) (y t)) (f : α → β) :
    Matches R ((f <$> x) s) ((f <$> y) t) := by
  rw [map_apply, map_apply]
  rcases alike.cases with ⟨a, s', t', left, right, state⟩ | ⟨e, s', t', left, right, state⟩ <;>
    rw [left, right] <;> exact ⟨rfl, state⟩

theorem adaptExcept {x : EStateM ε σ α} {y : EStateM ε τ α} (alike : Matches R (x s) (y t))
    (f : ε → ε') : Matches R ((x.adaptExcept f) s) ((y.adaptExcept f) t) := by
  unfold EStateM.adaptExcept
  rcases alike.cases with ⟨a, s', t', left, right, state⟩ | ⟨e, s', t', left, right, state⟩ <;>
    rw [left, right] <;> exact ⟨rfl, state⟩

theorem attempt {x : EStateM ε σ α} {y : EStateM ε τ α} (alike : Matches R (x s) (y t)) :
    Matches R ((CommandChain.attempt x : EStateM ε' σ (Except ε α)) s)
      ((CommandChain.attempt y : EStateM ε' τ (Except ε α)) t) := by
  unfold CommandChain.attempt
  rcases alike.cases with ⟨a, s', t', left, right, state⟩ | ⟨e, s', t', left, right, state⟩ <;>
    rw [left, right] <;> exact ⟨rfl, state⟩

end Matches

/-! ### Selectors -/

namespace Selector

section

variable {σ τ : Type} (text : String) (subject : Value) (env : Environment σ)

mutual

/-- Whether an expression that is evaluated in a state asks for a variable in another one. -/
def Expr.Asks : Expr → σ → String → σ → Prop
  | .var asked _, s, name, s' => name = asked ∧ s' = s
  | .call _ args, s, name, s' => args.Asks s name s'
  | .subject _, _, _, _ | .literal _, _, _, _ | .broken _, _, _, _ => False

/-- Whether the first of some arguments asks, or one that is evaluated after it. -/
def Args.Asks : Args → σ → String → σ → Prop
  | .item arg rest, s, name, s' => arg.Asks s name s' ∨
      ∃ value between, arg.evaluate text subject env s = .ok value between ∧
        rest.Asks between name s'
  | .close, _, _, _ | .broken _, _, _, _ => False

end

def Asks (s : σ) (name : String) (s' : σ) : Prop := (read text).expr.Asks text subject env s name s'

variable {text subject env}

theorem follow_matches {R : σ → τ → Prop} {s : σ} {t : τ} (state : R s t) (value : Value)
    (steps : Steps) :
    Matches R (follow text value steps s) ((follow text value steps : Evaluation τ Value) t) := by
  unfold follow
  cases navigateAll value steps.names with
  | error error => exact .of_error state
  | ok inner =>
    cases steps.fault with
    | some fault => exact .of_error state
    | none => exact .of_ok state

section

variable {env' : Environment τ} {R : σ → τ → Prop}

mutual

theorem Expr.evaluate_matches
    (calls : ∀ name args s t, R s t → Matches R (env.call name args s) (env'.call name args t))
    (expr : Expr) {s : σ} {t : τ} (state : R s t)
    (answers : ∀ name s' t', expr.Asks text subject env s name s' → R s' t' →
      Matches R (env.valueOf name s') (env'.valueOf name t')) :
    Matches R (expr.evaluate text subject env s) (expr.evaluate text subject env' t) := by
  cases expr with
  | subject steps =>
    unfold Expr.evaluate
    exact follow_matches state _ steps
  | var name steps =>
    unfold Expr.evaluate
    refine .bind (answers name s t (by rw [Expr.Asks]; exact ⟨rfl, rfl⟩) state) ?_
    intro found s' t' _ _ state'
    cases found with
    | some value => exact follow_matches state' value steps
    | none => exact .of_error state'
  | literal value =>
    unfold Expr.evaluate
    exact .of_ok state
  | call name args =>
    unfold Expr.evaluate
    refine .bind (args.evaluate_matches calls state fun asked s' t' asks => ?_) ?_
    · exact answers asked s' t' (by rw [Expr.Asks]; exact asks)
    · intro values s' t' _ _ state'
      exact calls name values s' t' state'
  | broken fault =>
    unfold Expr.evaluate
    exact .of_error state

theorem Args.evaluate_matches
    (calls : ∀ name args s t, R s t → Matches R (env.call name args s) (env'.call name args t))
    (args : Args) {s : σ} {t : τ} (state : R s t)
    (answers : ∀ name s' t', args.Asks text subject env s name s' → R s' t' →
      Matches R (env.valueOf name s') (env'.valueOf name t')) :
    Matches R (args.evaluate text subject env s) (args.evaluate text subject env' t) := by
  cases args with
  | close =>
    unfold Args.evaluate
    exact .of_ok state
  | item arg rest =>
    unfold Args.evaluate
    refine .bind (arg.evaluate_matches calls state fun asked s' t' asks => ?_) ?_
    · exact answers asked s' t' (by rw [Args.Asks]; exact .inl asks)
    · intro value s' t' evaluated _ state'
      refine .bind (rest.evaluate_matches calls state' fun asked s'' t'' asks => ?_) ?_
      · exact answers asked s'' t'' (by rw [Args.Asks]; exact .inr ⟨value, s', evaluated, asks⟩)
      · exact fun values s'' t'' _ _ state'' => .of_ok state''
  | broken fault =>
    unfold Args.evaluate
    exact .of_error state

end

theorem evaluate_matches
    (calls : ∀ name args s t, R s t → Matches R (env.call name args s) (env'.call name args t))
    {s : σ} {t : τ} (state : R s t)
    (answers : ∀ name s' t', Asks text subject env s name s' → R s' t' →
      Matches R (env.valueOf name s') (env'.valueOf name t')) :
    Matches R (evaluate text subject env s) (evaluate text subject env' t) := by
  unfold evaluate
  refine .bind (Expr.evaluate_matches calls _ state answers) fun value s' t' _ _ state' => ?_
  cases (read text).trailing with
  | some fault => exact .of_error state'
  | none => exact .of_ok state'

end

mutual

theorem Expr.asked_keeps {R : σ → σ → Prop} (steady : IsSteady R) (keeps : env.Keeps R)
    (expr : Expr) {s s' : σ} {name : String} (asks : expr.Asks text subject env s name s') :
    R s s' := by
  cases expr with
  | var asked steps =>
    rw [Expr.Asks] at asks
    rw [asks.2]
    exact steady.refl s
  | call called args =>
    rw [Expr.Asks] at asks
    exact args.asked_keeps steady keeps asks
  | subject | literal | broken =>
    rw [Expr.Asks] at asks
    exact asks.elim

theorem Args.asked_keeps {R : σ → σ → Prop} (steady : IsSteady R) (keeps : env.Keeps R)
    (args : Args) {s s' : σ} {name : String} (asks : args.Asks text subject env s name s') :
    R s s' := by
  cases args with
  | item arg rest =>
    rw [Args.Asks] at asks
    rcases asks with first | ⟨value, between, evaluated, later⟩
    · exact arg.asked_keeps steady keeps first
    · have kept : R s (outcomeOf (arg.evaluate text subject env s)).2 :=
        arg.evaluate_keeps steady keeps s
      rw [evaluated] at kept
      exact steady.trans kept (rest.asked_keeps steady keeps later)
  | close | broken =>
    rw [Args.Asks] at asks
    exact asks.elim

end

mutual

theorem Expr.evaluate_asked_error {s' s'' : σ} {name : String} {error : SelectorError}
    (fails : env.valueOf name s' = .error error s'') (expr : Expr) {s : σ}
    (asks : expr.Asks text subject env s name s') :
    expr.evaluate text subject env s = .error error s'' := by
  cases expr with
  | var asked steps =>
    rw [Expr.Asks] at asks
    obtain ⟨rfl, rfl⟩ := asks
    rw [Expr.evaluate, bind_apply, fails]
  | call called args =>
    rw [Expr.Asks] at asks
    rw [Expr.evaluate, bind_apply, args.evaluate_asked_error fails asks]
  | subject | literal | broken =>
    rw [Expr.Asks] at asks
    exact asks.elim

theorem Args.evaluate_asked_error {s' s'' : σ} {name : String} {error : SelectorError}
    (fails : env.valueOf name s' = .error error s'') (args : Args) {s : σ}
    (asks : args.Asks text subject env s name s') :
    args.evaluate text subject env s = .error error s'' := by
  cases args with
  | item arg rest =>
    rw [Args.Asks] at asks
    rw [Args.evaluate, bind_apply]
    rcases asks with first | ⟨value, between, evaluated, later⟩
    · rw [arg.evaluate_asked_error fails first]
    · simp only [evaluated]
      rw [bind_apply, rest.evaluate_asked_error fails later]
  | close | broken =>
    rw [Args.Asks] at asks
    exact asks.elim

end

theorem evaluate_asked_error {s s' s'' : σ} {name : String} {error : SelectorError}
    (fails : env.valueOf name s' = .error error s'') (asks : Asks text subject env s name s') :
    evaluate text subject env s = .error error s'' := by
  unfold evaluate
  rw [bind_apply, Expr.evaluate_asked_error fails _ asks]

end
end Selector

/-! ### Making a component -/

variable {I H : Type}

/-- What a relation between two worlds must allow for what is done to both to keep it. -/
structure Pairing (R : World I H → World I H → Prop) : Prop where
  namespaceUri? {w v : World I H} (paired : R w v) (ctx : Context I H) :
    v.namespaceUri? ctx = w.namespaceUri? ctx
  override {w v : World I H} (paired : R w v) (ctx : Context I H)
    (mappings : List (String × String)) :
    (v.overrideBindings ctx mappings).1 = (w.overrideBindings ctx mappings).1 ∧
      R (w.overrideBindings ctx mappings).2 (v.overrideBindings ctx mappings).2
  restore {w v : World I H} (paired : R w v) (ctx : Context I H) (snapshot : Snapshot) :
    R (w.restoreBindings ctx snapshot) (v.restoreBindings ctx snapshot)
  note {w v : World I H} (paired : R w v) (level : LogLevel) (text : String) :
    R (w.note level text) (v.note level text)
  host {w v : World I H} (paired : R w v) : v.host = w.host
  rehost {w v : World I H} (paired : R w v) (host : H) : R { w with host } { v with host }
  construct {w v : World I H} (paired : R w v) (typeName : String) (content : I) :
    (v.addCell typeName content).1 = (w.addCell typeName content).1 ∧
      R (w.addCell typeName content).2 (v.addCell typeName content).2
  run {w v : World I H} (paired : R w v) {α : Type} (ref : ComponentRef) (action : Action I H α) :
    (v.runOn ref action).1 = (w.runOn ref action).1 ∧ R (w.runOn ref action).2 (v.runOn ref action).2
  hook {w v : World I H} (paired : R w v) (ref : ComponentRef) (hook : Hook I H) :
    (v.runHook ref .begin hook).1 = (w.runHook ref .begin hook).1 ∧
      R (w.runHook ref .begin hook).2 (v.runHook ref .begin hook).2
  /-- Tables may differ in what is being made. -/
  table {w v : World I H} (paired : R w v) (table : Nat) :
    { v.table table with creating := [] } = { w.table table with creating := [] }
  begins {w v : World I H} (paired : R w v) (ctx : Context I H) (name : QName) :
    R (w.beginMaking ctx name) (v.beginMaking ctx name)
  ends {w v : World I H} (paired : R w v) (ctx : Context I H) (name : QName)
    (made : Option ComponentRef) : R (w.endMaking ctx name made) (v.endMaking ctx name made)
  cache {w v : World I H} (paired : R w v) (ctx : Context I H) (name : QName)
    (cached : Cached I H) :
    R (w.changeTable ctx (·.cache name cached)) (v.changeTable ctx (·.cache name cached))

theorem pairing_eq : Pairing (I := I) (H := H) Eq where
  namespaceUri? paired _ := by rw [paired]
  override paired _ _ := by
    subst paired
    exact ⟨rfl, rfl⟩
  restore paired _ _ := by rw [paired]
  note paired _ _ := by rw [paired]
  host paired := by rw [paired]
  rehost paired _ := by rw [paired]
  construct paired _ _ := by
    subst paired
    exact ⟨rfl, rfl⟩
  run paired _ _ _ := by
    subst paired
    exact ⟨rfl, rfl⟩
  hook paired _ _ := by
    subst paired
    exact ⟨rfl, rfl⟩
  table paired _ := by rw [paired]
  begins paired _ _ := by rw [paired]
  ends paired _ _ _ := by rw [paired]
  cache paired _ _ _ := by rw [paired]

namespace Pairing

variable {R : World I H → World I H → Prop} {w v : World I H} (pairing : Pairing R)
  (paired : R w v)

include pairing paired

theorem isReleased (ctx : Context I H) : v.isReleased ctx = w.isReleased ctx :=
  (congrArg Table.released (pairing.table paired ctx.node.table) :)

theorem component? (ctx : Context I H) (name : QName) :
    (v.tableOf ctx).component? name = (w.tableOf ctx).component? name :=
  (congrArg (Table.component? · name) (pairing.table paired ctx.node.table) :)

theorem declared (ctx : Context I H) : (v.tableOf ctx).declared = (w.tableOf ctx).declared :=
  (congrArg Table.declared (pairing.table paired ctx.node.table) :)

end Pairing

namespace Lifecycle

section

variable (evaluate : Evaluator I H) (ref : ComponentRef) (d : Descriptor I H) (ctx : Context I H)

/-- Feeds one injection point. A nullable one that fails is left unset. -/
def feedPoint (point : InjectionPoint I H) : WorldM I H LifecycleError Unit := do
  match ← injectPoint evaluate ref ctx point with
  | .ok () => pure ()
  | .error cause =>
    if point.injection.nullable then
      modify (·.note .debug ("left " ++ point.injection.target.text ++ " of " ++ d.name.text ++
        " unset: " ++ Failure.chainText cause.message cause.causes))
    else
      throw (.injection d.name point.injection.target point.injection.select ctx.scope cause)

theorem injectPoints_cons (point : InjectionPoint I H) (rest : List (InjectionPoint I H)) :
    injectPoints evaluate ref d ctx (point :: rest) = (do
      feedPoint evaluate ref d ctx point
      injectPoints evaluate ref d ctx rest) := by
  funext w
  rw [injectPoints, feedPoint, bind_assoc, bind_apply, bind_apply]
  cases injectPoint evaluate ref ctx point w with
  | error error w' => rfl
  | ok outcome w' =>
    cases outcome with
    | ok => rfl
    | error cause =>
      dsimp only
      split <;> rfl

/-- Whether the selector of a point is evaluated in a world, with the bindings of the point. -/
def Feeds : List (InjectionPoint I H) → World I H → InjectionPoint I H → World I H → Prop
  | [], _, _, _ => False
  | point :: rest, w, fed, w' =>
    (fed = point ∧ w' = (w.overrideBindings ctx point.injection.mappings).2) ∨
      ∃ between, feedPoint evaluate ref d ctx point w = .ok () between ∧ Feeds rest between fed w'

/-- As `Feeds`, for a whole instance. -/
def Makes (w : World I H) (fed : InjectionPoint I H) (w' : World I H) : Prop :=
  ∃ ref built, construct d w = .ok ref built ∧ Feeds evaluate ref d ctx d.injections built fed w'

end

/-! What is kept until the selector of a point is evaluated. -/

section

variable {near : Node I H → Prop} {makes : Node I H → QName → Descriptor I H → Prop}
  {R : List Mark → World I H → World I H → Prop} (rules : Rules near makes R) {busy : List Mark}
  {evaluate : Evaluator I H} (keeps : ∀ text, Keeps (R busy) (evaluate text))

include rules keeps

theorem feedPoint_keeps (ref : ComponentRef) (d : Descriptor I H) (ctx : Context I H)
    (point : InjectionPoint I H) : Keeps (R busy) (feedPoint evaluate ref d ctx point) := by
  have steady := rules.steady busy
  unfold feedPoint
  refine .bind steady (injectPoint_keeps rules keeps ref ctx point) fun outcome => ?_
  cases outcome with
  | ok => exact .of_pure steady _
  | error cause =>
    dsimp only
    split
    · exact .of_modify fun w => rules.twin ⟨⟨rfl, rfl, rfl, rfl, rfl⟩, rfl, rfl⟩
    · exact .of_throw steady _

variable {d : Descriptor I H} {ctx : Context I H} {w w' : World I H} {point : InjectionPoint I H}

theorem Feeds.kept {ref : ComponentRef} {points : List (InjectionPoint I H)}
    (feeds : Feeds evaluate ref d ctx points w point w') :
    ∃ between, R busy w between ∧
      w' = (between.overrideBindings ctx point.injection.mappings).2 := by
  have steady := rules.steady busy
  induction points generalizing w with
  | nil => exact feeds.elim
  | cons first rest ih =>
    rcases feeds with ⟨rfl, same⟩ | ⟨middle, fed, feeds⟩
    · exact ⟨w, steady.refl w, same⟩
    · have kept := feedPoint_keeps rules keeps ref d ctx first w
      rw [fed] at kept
      obtain ⟨between, kept', same⟩ := ih feeds
      exact ⟨between, steady.trans kept kept', same⟩

theorem Makes.kept (makes : Makes evaluate d ctx w point w') :
    ∃ between, R busy w between ∧
      w' = (between.overrideBindings ctx point.injection.mappings).2 := by
  have steady := rules.steady busy
  obtain ⟨ref, built, constructs, feeds⟩ := makes
  obtain ⟨between, kept, same⟩ := feeds.kept rules keeps
  refine ⟨between, steady.trans ?_ kept, same⟩
  unfold construct at constructs
  split at constructs
  · cases constructs
  · rename_i content host _
    cases constructs
    have placed : w.Twin { w with host } := ⟨⟨rfl, rfl, rfl, rfl, rfl⟩, rfl, rfl⟩
    exact steady.trans (rules.twin placed) (rules.construct { w with host } d.typeName content)

end

variable {evaluate evaluate' : Evaluator I H} {ref : ComponentRef} {d : Descriptor I H}
  {ctx : Context I H} {R : World I H → World I H → Prop} {w v : World I H}

section

variable (pairing : Pairing R)

include pairing

theorem evaluatePoint_matches (paired : R w v) (point : InjectionPoint I H)
    (answers : ∀ v', R (w.overrideBindings ctx point.injection.mappings).2 v' →
      Matches R (evaluate point.injection.select (w.overrideBindings ctx point.injection.mappings).2)
        (evaluate' point.injection.select v')) :
    Matches R (evaluatePoint evaluate ctx point w) (evaluatePoint evaluate' ctx point v) := by
  obtain ⟨same, overridden⟩ := pairing.override paired ctx point.injection.mappings
  unfold evaluatePoint
  refine .bind (.of_modifyGet same overridden) fun snapshot w' v' left _ paired => ?_
  rw [modifyGet_apply] at left
  cases left
  refine .bind (answers v' paired).attempt fun outcome w'' v'' _ _ paired => ?_
  exact .of_ok (pairing.restore paired ctx _)

theorem injectPoint_matches (paired : R w v) (point : InjectionPoint I H)
    (answers : ∀ v', R (w.overrideBindings ctx point.injection.mappings).2 v' →
      Matches R (evaluate point.injection.select (w.overrideBindings ctx point.injection.mappings).2)
        (evaluate' point.injection.select v')) :
    Matches R (injectPoint evaluate ref ctx point w) (injectPoint evaluate' ref ctx point v) := by
  unfold injectPoint
  refine .bind (evaluatePoint_matches pairing paired point answers) ?_
  intro outcome w' v' _ _ paired
  cases outcome with
  | error error => exact .of_ok paired
  | ok value =>
    obtain ⟨same, ran⟩ := pairing.run paired ref (point.assign value)
    refine .bind (.of_modifyGet same ran) fun outcome w'' v'' _ _ paired => ?_
    cases outcome <;> exact .of_ok paired

theorem feedPoint_matches (paired : R w v) (point : InjectionPoint I H)
    (answers : ∀ v', R (w.overrideBindings ctx point.injection.mappings).2 v' →
      Matches R (evaluate point.injection.select (w.overrideBindings ctx point.injection.mappings).2)
        (evaluate' point.injection.select v')) :
    Matches R (feedPoint evaluate ref d ctx point w) (feedPoint evaluate' ref d ctx point v) := by
  unfold feedPoint
  refine .bind (injectPoint_matches pairing paired point answers) ?_
  intro outcome w' v' _ _ paired
  cases outcome with
  | ok => exact .of_ok paired
  | error cause =>
    dsimp only
    split
    · exact .of_ok (pairing.note paired _ _)
    · exact .of_error paired

theorem injectPoints_matches (points : List (InjectionPoint I H)) (paired : R w v)
    (answers : ∀ point w' v', Feeds evaluate ref d ctx points w point w' → R w' v' →
      Matches R (evaluate point.injection.select w') (evaluate' point.injection.select v')) :
    Matches R (injectPoints evaluate ref d ctx points w)
      (injectPoints evaluate' ref d ctx points v) := by
  induction points generalizing w v with
  | nil => exact .of_ok paired
  | cons point rest ih =>
    rw [injectPoints_cons, injectPoints_cons]
    refine .bind (feedPoint_matches pairing paired point fun v' => ?_) ?_
    · exact answers point _ v' (.inl ⟨rfl, rfl⟩)
    · intro _ w' v' fed _ paired
      exact ih paired fun other w'' v'' feeds => answers other w'' v'' (.inr ⟨w', fed, feeds⟩)

theorem beginHooks_matches (ref : ComponentRef) (name : QName) (hooks : List (Hook I H))
    (paired : R w v) : Matches R (beginHooks ref name hooks w) (beginHooks ref name hooks v) := by
  induction hooks generalizing w v with
  | nil => exact .of_ok paired
  | cons hook rest ih =>
    obtain ⟨same, ran⟩ := pairing.hook paired ref hook
    unfold beginHooks
    refine .bind (.of_modifyGet same ran) fun outcome w' v' _ _ paired => ?_
    rcases outcome with _ | _ | _
    · exact .of_error paired
    · exact .of_error paired
    · exact ih paired

theorem construct_matches (d : Descriptor I H) (paired : R w v) :
    Matches R (construct d w) (construct d v) := by
  unfold construct
  rw [pairing.host paired]
  cases d.construct w.host with
  | error cause host => exact .of_error (pairing.rehost paired host)
  | ok content host =>
    obtain ⟨same, added⟩ := pairing.construct (pairing.rehost paired host) d.typeName content
    exact ⟨congrArg Except.ok same, added⟩

theorem create_matches (paired : R w v)
    (answers : ∀ point w' v', Makes evaluate d ctx w point w' → R w' v' →
      Matches R (evaluate point.injection.select w') (evaluate' point.injection.select v')) :
    Matches R (create evaluate d ctx w) (create evaluate' d ctx v) := by
  unfold create
  refine .bind (construct_matches pairing d paired) fun ref w' v' built _ paired => ?_
  refine .bind (injectPoints_matches pairing _ paired fun point w'' v'' feeds => ?_) ?_
  · exact answers point w'' v'' ⟨ref, w', built, feeds⟩
  · intro _ w'' v'' _ _ paired
    refine .bind (beginHooks_matches pairing ref d.name d.beginHooks paired) ?_
    intro _ _ _ _ _ paired
    exact .of_ok (pairing.note paired _ _)

end
end Lifecycle

end CommandChain
