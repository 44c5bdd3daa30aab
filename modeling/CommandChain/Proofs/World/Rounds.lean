import CommandChain.Proofs.World.Asking

/-!
Lookups, one round at a time. A lookup goes on to the lookups that a creation asks for, and to the
one that it hands to the node around its own. Lookups that are blocked alike, and whose further
lookups are answered alike, end alike.
-/
namespace CommandChain

variable {I H : Type}

namespace Resolve

/-- Whether the creation of a component asks for a name to be looked up, for one of its points. -/
def Wants (ctx : Context I H) (d : Descriptor I H)
    (lookup : QName → WorldM I H ResolveError (Option Value)) (w : World I H)
    (point : InjectionPoint I H) (name : QName) (w' : World I H) : Prop :=
  ∃ fed text, Lifecycle.Makes (evaluateWith ctx lookup) d ctx w point fed ∧
    Selector.Asks point.injection.select ctx.subject (environment ctx lookup) fed text w' ∧
    readNameIn ctx text w' = .ok name w'

/-! What is kept up to a lookup that is asked for. -/

section

variable {near : Node I H → Prop} {makes : Node I H → QName → Descriptor I H → Prop}
  {R : List Mark → World I H → World I H → Prop} (rules : Rules near makes R) {busy : List Mark}
  {ctx : Context I H} {d : Descriptor I H} {w w' : World I H} {point : InjectionPoint I H}

include rules

variable (busy) in
theorem Wants.kept {lookup : QName → WorldM I H ResolveError (Option Value)} {name : QName}
    (keeps : ∀ other, Keeps (R busy) (lookup other)) (wants : Wants ctx d lookup w point name w') :
    ∃ between, R busy w between ∧
      R busy (between.overrideBindings ctx point.injection.mappings).2 w' := by
  have steady := rules.steady busy
  obtain ⟨fed, text, makes, asks, -⟩ := wants
  obtain ⟨between, kept, rfl⟩ := makes.kept rules (evaluateWith_keeps steady ctx keeps)
  exact ⟨between, kept, Selector.Expr.asked_keeps steady (environment_keeps steady ctx keeps) _ asks⟩

end

section

variable {R : World I H → World I H → Prop} (pairing : Pairing R) {ctx : Context I H}
  {lookup lookup' : QName → WorldM I H ResolveError (Option Value)} {w v : World I H}

theorem readNameIn_apply (ctx : Context I H) (text : String) (w : World I H) :
    readNameIn ctx text w = match QName.parse text (w.namespaceUri? ctx) with
      | .ok name => .ok name w
      | .error error => .error (ResolveError.qname error).toSelectorError w := by
  simp only [readNameIn, readName, EStateM.adaptExcept, bind_apply, get_apply]
  cases QName.parse text (w.namespaceUri? ctx) <;> rfl

theorem readNameIn_world {ctx : Context I H} {text : String} {w w' : World I H} {name : QName}
    (reads : readNameIn ctx text w = .ok name w') : w' = w := by
  rw [readNameIn_apply] at reads
  split at reads <;> cases reads
  rfl

include pairing

theorem readNameIn_matches (paired : R w v) (text : String) :
    Matches R (readNameIn ctx text w) (readNameIn ctx text v) := by
  rw [readNameIn_apply, readNameIn_apply, pairing.namespaceUri? paired]
  cases QName.parse text (w.namespaceUri? ctx) with
  | ok name => exact .of_ok paired
  | error error => exact .of_error paired

theorem evaluateWith_matches (paired : R w v) (text : String)
    (answers : ∀ asked name w' v',
      Selector.Asks text ctx.subject (environment ctx lookup) w asked w' →
      readNameIn ctx asked w' = .ok name w' → R w' v' →
      Matches R (lookup name w') (lookup' name v')) :
    Matches R (evaluateWith ctx lookup text w) (evaluateWith ctx lookup' text v) := by
  refine Selector.evaluate_matches (fun name args w' v' paired => ?_) paired ?_
  · refine .bind (readNameIn_matches pairing paired name) fun qname w'' v'' _ _ paired => ?_
    cases ctx.registry.function? qname with
    | none => exact .of_error paired
    | some function =>
      dsimp only
      cases function args with
      | ok value => exact .of_ok paired
      | error error => exact .of_error paired
  · intro asked w' v' asks paired
    refine .bind (readNameIn_matches pairing paired asked) ?_
    intro name w'' v'' reads _ paired'
    cases readNameIn_world reads
    exact (answers asked name w' v'' asks reads paired').adaptExcept _

theorem createAndCache_matches (paired : R w v) (name : QName) (d : Descriptor I H)
    (answers : ∀ point other w' v', Wants ctx d lookup (w.beginMaking ctx name) point other w' →
      R w' v' → Matches R (lookup other w') (lookup' other v')) :
    Matches R (createAndCache ctx name d lookup w) (createAndCache ctx name d lookup' v) := by
  have begun := pairing.begins paired ctx name
  have creates : Matches R
      (Lifecycle.create (evaluateWith ctx lookup) d ctx (w.beginMaking ctx name))
      (Lifecycle.create (evaluateWith ctx lookup') d ctx (v.beginMaking ctx name)) := by
    refine Lifecycle.create_matches pairing begun fun point w' v' makes paired' => ?_
    refine evaluateWith_matches pairing paired' _ fun asked other w'' v'' asks reads => ?_
    exact answers point other w'' v'' ⟨w', asked, makes, asks, reads⟩
  unfold createAndCache
  simp only [bind_apply, modify_apply, attempt]
  rcases creates.cases with ⟨ref, w', v', left, right, paired'⟩ |
    ⟨error, w', v', left, right, paired'⟩ <;> rw [left, right]
  · exact .of_ok (pairing.cache (pairing.ends paired' ctx name _) ctx name _)
  · exact .of_error (pairing.note (pairing.ends paired' ctx name _) _ _)

end

/-! How a component is fetched, case by case. -/

section

variable {busy : List Mark} {ctx : Context I H} {name : QName} {d : Descriptor I H} {w : World I H}
  {create : (d : Descriptor I H) → ctx.registry.descriptor? name = some d →
    busy.contains (ctx.node.table, name) = false → WorldM I H ResolveError ComponentRef}

theorem fetch_released (released : w.isReleased ctx = true) :
    fetch busy ctx name create w = .error (.released ctx.scope) w := by
  rw [fetch, bind_apply, ensureLive_apply, released]
  rfl

section

variable (live : w.isReleased ctx = false)

include live

theorem fetch_cached {ref : ComponentRef} (cached : (w.tableOf ctx).component? name = some ref) :
    fetch busy ctx name create w = .ok (some ref) w := by
  rw [fetch, bind_apply, ensureLive_apply, live]
  simp only [Bool.false_eq_true, if_false, bind_apply, get_apply, cached]
  rfl

variable (absent : (w.tableOf ctx).component? name = none)

include absent

theorem fetch_unregistered (unregistered : ctx.registry.descriptor? name = none) :
    fetch busy ctx name create w = .ok none w := by
  rcases fetch_cases create w with ⟨released, -⟩ | ⟨-, ⟨ref, cached, -⟩ |
      ⟨-, ⟨-, fetches⟩ | ⟨d, registered, -⟩⟩⟩
  · rw [live] at released
    cases released
  · rw [absent] at cached
    cases cached
  · exact fetches
  · rw [unregistered] at registered
    cases registered

theorem fetch_registered (registered : ctx.registry.descriptor? name = some d) :
    ((busy.contains (ctx.node.table, name) = true ∨ name ∈ (w.tableOf ctx).creating) ∧
        fetch busy ctx name create w = .error (.circularComponent name) w) ∨
      ∃ free, name ∉ (w.tableOf ctx).creating ∧
        fetch busy ctx name create w = (some <$> create d registered free) w := by
  rcases fetch_cases create w with ⟨released, -⟩ | ⟨-, ⟨ref, cached, -⟩ |
      ⟨-, ⟨unregistered, -⟩ | ⟨d', registered', fetches⟩⟩⟩
  · rw [live] at released
    cases released
  · rw [absent] at cached
    cases cached
  · rw [registered] at unregistered
    cases unregistered
  · cases registered.symm.trans registered'
    exact fetches

end

theorem fetch_matches {R : World I H → World I H → Prop} (pairing : Pairing R) {v : World I H}
    (paired : R w v) {busy' : List Mark}
    {create' : (d : Descriptor I H) → ctx.registry.descriptor? name = some d →
      busy'.contains (ctx.node.table, name) = false → WorldM I H ResolveError ComponentRef}
    (blocked : w.isReleased ctx = false →
      ((busy'.contains (ctx.node.table, name) = true ∨ name ∈ (v.tableOf ctx).creating) ↔
        (busy.contains (ctx.node.table, name) = true ∨ name ∈ (w.tableOf ctx).creating)))
    (creates : ∀ d registered free free', w.isReleased ctx = false →
      (w.tableOf ctx).component? name = none → name ∉ (w.tableOf ctx).creating →
      Matches R (create d registered free w) (create' d registered free' v)) :
    Matches R (fetch busy ctx name create w) (fetch busy' ctx name create' v) := by
  have release := pairing.isReleased paired ctx
  have cache := pairing.component? paired ctx name
  rcases fetch_cases create w with ⟨released, fetches⟩ | ⟨live, ⟨ref, cached, fetches⟩ |
      ⟨absent, ⟨unregistered, fetches⟩ | ⟨d, registered, going⟩⟩⟩
  · rw [fetches, fetch_released (release.trans released)]
    exact .of_error paired
  · rw [fetches, fetch_cached (release.trans live) (cache.trans cached)]
    exact .of_ok paired
  · rw [fetches, fetch_unregistered (release.trans live) (cache.trans absent) unregistered]
    exact .of_ok paired
  · rcases going with ⟨blocks, fetches⟩ | ⟨free, idle, fetches⟩ <;>
    rcases fetch_registered (release.trans live) (cache.trans absent) registered with
      ⟨blocks', fetches'⟩ | ⟨free', idle', fetches'⟩ <;> rw [fetches, fetches']
    · exact .of_error paired
    · exact absurd ((blocked live).mpr blocks) (not_or.mpr ⟨Bool.eq_false_iff.mp free', idle'⟩)
    · exact absurd ((blocked live).mp blocks') (not_or.mpr ⟨Bool.eq_false_iff.mp free, idle⟩)
    · exact (creates d registered free free' live absent idle).map some

end

/-! A lookup by what it goes on to. -/

/-- One round of a lookup, which goes on with the lookups that a creation asks for and with the one
that it hands to the node around its own. -/
def round (busy : List Mark) (inner : QName → WorldM I H ResolveError (Option Value))
    (outer : Context I H → WorldM I H ResolveError (Option Value)) (ctx : Context I H)
    (name : QName) : WorldM I H ResolveError (Option Value) := do
  ensureLive ctx
  let found ← match ctx.registry.descriptor? name with
    | none => pure none
    | some d =>
      if d.scope = ctx.scope then do
        let ref? ← fetch busy ctx name fun d _ _ => createAndCache ctx name d inner
        pure (ref?.map Value.component)
      else match ctx.ancestors with
        | [] => throw (.componentOutOfReach name d.scope)
        | node :: rest => outer ⟨node, rest⟩
  match found with
  | some value => pure (some value)
  | none => pure (OrderedMap.find? ((← get).tableOf ctx).declared name)

theorem lookup_round (busy : List Mark) (ctx : Context I H) (name : QName) :
    lookup busy ctx name = round busy (lookup ((ctx.node.table, name) :: busy) ctx)
      (fun around => lookup busy around name) ctx name := by
  obtain ⟨node, ancestors⟩ := ctx
  rw [lookup]
  cases ancestors <;> rfl

/-- Rounds that are blocked alike and go on alike end alike. -/
theorem round_matches {R : World I H → World I H → Prop} (pairing : Pairing R) {ctx : Context I H}
    {name : QName} {w v : World I H} (paired : R w v) {busy busy' : List Mark}
    {inner inner' : QName → WorldM I H ResolveError (Option Value)}
    {outer outer' : Context I H → WorldM I H ResolveError (Option Value)}
    (blocked : ∀ d, w.isReleased ctx = false → ctx.registry.descriptor? name = some d →
      d.scope = ctx.scope →
      ((busy'.contains (ctx.node.table, name) = true ∨ name ∈ (v.tableOf ctx).creating) ↔
        (busy.contains (ctx.node.table, name) = true ∨ name ∈ (w.tableOf ctx).creating)))
    (asked : ∀ d point other w' v', w.isReleased ctx = false →
      ctx.registry.descriptor? name = some d → d.scope = ctx.scope →
      busy.contains (ctx.node.table, name) = false →
      (w.tableOf ctx).component? name = none → name ∉ (w.tableOf ctx).creating →
      Wants ctx d inner (w.beginMaking ctx name) point other w' → R w' v' →
      Matches R (inner other w') (inner' other v'))
    (handed : ∀ d node rest, w.isReleased ctx = false → ctx.registry.descriptor? name = some d →
      d.scope ≠ ctx.scope → ctx.ancestors = node :: rest →
      Matches R (outer ⟨node, rest⟩ w) (outer' ⟨node, rest⟩ v)) :
    Matches R (round busy inner outer ctx name w) (round busy' inner' outer' ctx name v) := by
  have declared (found : Option Value) (w' v' : World I H) (paired : R w' v') : Matches R
      ((match found with
        | some value => pure (some value)
        | none => do pure (OrderedMap.find? ((← get).tableOf ctx).declared name) :
        WorldM I H ResolveError (Option Value)) w')
      ((match found with
        | some value => pure (some value)
        | none => do pure (OrderedMap.find? ((← get).tableOf ctx).declared name) :
        WorldM I H ResolveError (Option Value)) v') := by
    cases found with
    | some value => exact .of_ok paired
    | none =>
      have same := pairing.declared paired ctx
      exact ⟨congrArg (fun declared => Except.ok (OrderedMap.find? declared name)) same, paired⟩
  have release := pairing.isReleased paired ctx
  unfold round
  rw [bind_apply, bind_apply, ensureLive_apply, ensureLive_apply, release]
  cases live : w.isReleased ctx with
  | true => exact .of_error paired
  | false =>
    simp only [Bool.false_eq_true, if_false]
    rcases Option.eq_none_or_eq_some (ctx.registry.descriptor? name) with
      registered | ⟨d, registered⟩ <;> simp only [registered]
    · exact .bind (.of_ok paired) fun found w' v' _ _ paired => declared found w' v' paired
    · by_cases own : d.scope = ctx.scope
      · rw [if_pos own, if_pos own]
        have blocked live := blocked d live registered own
        refine .bind (fetch_matches pairing paired blocked ?_) fun ref? w' v' _ _ paired => ?_
        · intro d' registered' free _ live absent idle
          cases registered.symm.trans registered'
          exact createAndCache_matches pairing paired name d fun point other w' v' wants =>
            asked d point other w' v' live registered own free absent idle wants
        · exact .bind (.of_ok paired) fun found w'' v'' _ _ paired => declared found w'' v'' paired
      · rw [if_neg own, if_neg own]
        cases around : ctx.ancestors with
        | nil =>
          exact .bind (.of_error paired) fun found w' v' _ _ paired => declared found w' v' paired
        | cons node rest =>
          exact .bind (handed d node rest live registered own around) fun found w' v' _ _ paired =>
            declared found w' v' paired

end Resolve
end CommandChain
