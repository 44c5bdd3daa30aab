import CommandChain.Proofs.Raises

/-!
Nests in which every level raises. What the innermost level of a straight nest raises travels
outward, and every level above adds the fault that it raises itself, unless that is the one that
came to it. So the chain on the frame below the nest lists the faults of the levels from the
outermost in, where neighbours that raise one and the same fault count once, with the trace of the
innermost of them.
-/
namespace CommandChain

variable {I H : Type}

/-- A fault and the trace at the moment that it was recorded. -/
abbrev Told := Fault × List TraceElement

def Raise.told (raise : Raise I H) : Told :=
  (raise.fault, raise.before.machine.executionTrace)

def RaisedChain.listed (chain : RaisedChain) : List Told :=
  chain.all.map fun raised => (raised.fault, raised.trace)

def RunFailure.listed (failure : RunFailure) : List Told :=
  (failure.fault, failure.trace) :: failure.interrupted

/-- With neighbours for the same fault counted once, as the last of them. -/
def collapsed : List Told → List Told
  | [] => []
  | [only] => [only]
  | first :: second :: rest =>
    if first.1.same second.1 then collapsed (second :: rest)
    else first :: collapsed (second :: rest)

theorem collapsed_cons (first : Told) (rest : List Told) :
    ∃ entry others, collapsed (first :: rest) = entry :: others ∧ entry.1.id = first.1.id := by
  induction rest generalizing first with
  | nil => exact ⟨first, [], rfl, rfl⟩
  | cons second rest ih =>
    rw [collapsed]
    split
    · rename_i same
      obtain ⟨entry, others, lists, heads⟩ := ih second
      refine ⟨entry, others, lists, heads.trans ?_⟩
      exact (of_decide_eq_true same).symm
    · exact ⟨first, _, rfl, rfl⟩

theorem failure_listed (chain : RaisedChain) : chain.failure.listed = chain.listed := by
  obtain ⟨latest, interrupted⟩ := chain
  change (RaisedChain.failureOf latest interrupted).listed = _
  induction interrupted generalizing latest with
  | nil => rfl
  | cons next rest ih => exact congrArg ((latest.fault, latest.trace) :: ·) (ih next)

/-- What a frame lists that carries an exception, or none. -/
def carriedList (exception : Option RaisedChain) : List Told :=
  exception.elim [] RaisedChain.listed

theorem listed_same {carried : RaisedChain} {told : List Told}
    (lists : carried.listed = collapsed told) {fault : Fault}
    (same : carried.latest.fault.same fault = true) (trace : List TraceElement) :
    carried.listed = collapsed ((fault, trace) :: told) := by
  cases told with
  | nil => cases lists
  | cons first rest =>
    obtain ⟨entry, others, collapses, heads⟩ := collapsed_cons first rest
    have latest : (carried.latest.fault, carried.latest.trace) = entry :=
      (List.cons.inj (lists.trans collapses)).1
    have again : fault.same first.1 = true := by
      rw [← latest] at heads
      simp only [Fault.same, decide_eq_true_eq] at same ⊢
      exact same.symm.trans heads
    rw [collapsed, if_pos again, lists]

theorem listed_new {exception : Option RaisedChain} {told : List Told}
    (lists : carriedList exception = collapsed told) {fault : Fault}
    (other : ∀ carried, exception = some carried → carried.latest.fault.same fault = false)
    (id : Nat) (trace : List TraceElement) :
    RaisedChain.listed ⟨⟨id, fault, trace⟩, exception.elim [] RaisedChain.all⟩ =
      collapsed ((fault, trace) :: told) := by
  cases told with
  | nil =>
    cases exception with
    | none => rfl
    | some carried => cases lists
  | cons first rest =>
    obtain ⟨entry, others, collapses, heads⟩ := collapsed_cons first rest
    cases exception with
    | none =>
      rw [collapses] at lists
      cases lists
    | some carried =>
      have latest : (carried.latest.fault, carried.latest.trace) = entry :=
        (List.cons.inj (lists.trans collapses)).1
      have differs : fault.same first.1 = false := by
        have differs := other carried rfl
        rw [← latest] at heads
        simp only [Fault.same, decide_eq_false_iff_not] at differs ⊢
        exact fun same => differs (heads.trans same.symm)
      rw [collapsed, differs, ← lists]
      rfl

/-- A nest of so many levels: in each a command is invoked whose body is the next level in, and
whatever comes of that, the body around it raises a fault after that and invokes nothing more. -/
inductive CallTree.Straight : Nat → CallTree → Prop where
  | raise (fault : Fault) : Straight 0 (.raise fault)
  | mint {levels cause next} (mints : ∀ fault, Straight levels (next fault)) :
    Straight levels (.mint cause next)
  | invoke {levels command plain body next} (inner : Straight levels body)
    (raises : ∀ outcome, Straight 0 (next outcome)) :
    Straight (levels + 1) (.invoke command plain body next)

def CallTree.alone (command : Command) (plain : command.isFilter = false) (body : CallTree) :
    CallTree :=
  .invoke command plain body fun _ => .pass

/-- Whether a body of so many levels failed and left on its frame what the raises in it collapse to.
No level that is too deep to be entered raises. -/
structure CallTree.Lists (levels : Nat) (m : Machine I H) (outcome : Except Fault Unit)
    (last : Machine I H) (here : List (Raise I H)) : Prop where
  fails : ∃ fault, outcome = .error fault
  length : here.length = min levels (m.settings.maxDepth - m.frames.length)
  lists : carriedList (last.frames.head?.bind (·.exception)) =
    collapsed (here.reverse.map Raise.told)

namespace CallTree

variable {levels : Nat} {tree body : CallTree} {command : Command} {ctx : Context I H}
  {run : Run I H}

theorem Straight.leaf (straight : Straight levels tree) (none_below : levels = 0)
    (ctx : Context I H) (run : Run I H) :
    ∃ fault world, tree.left ctx run = (.error fault, ⟨run.machine, world⟩) ∧
      tree.raises ctx run = [] := by
  induction straight generalizing run with
  | raise fault => exact ⟨fault, run.world, rfl, rfl⟩
  | mint mints ih =>
    rename_i levels cause next
    obtain ⟨minted, world, -, left, raises⟩ := left_mint cause next ctx run
    obtain ⟨fault, world', fails, none_raised⟩ := ih minted none_below ⟨run.machine, world⟩
    exact ⟨fault, world', left.trans fails, raises.trans none_raised⟩
  | invoke => cases none_below

/-- The invocation of a nest of so many levels, one more with its own. -/
theorem Invocation.lists {outcome : Except Fault Unit} {last : Machine I H}
    {here : List (Raise I H)} (invocation : Invocation body command run outcome last here)
    (numbered : run.machine.Numbered)
    (shallow : run.machine.frames.length < run.machine.settings.maxDepth)
    (within : ∀ entered inner, run.Enters command entered inner →
      Lists levels inner.machine (body.left entered inner).1
        (body.left entered inner).2.machine (body.raises entered inner)) :
    Lists (levels + 1) run.machine outcome last here := by
  cases invocation with
  | refused deep => exact absurd shallow (Nat.not_lt_of_le deep)
  | passed enters ran =>
    obtain ⟨fault, fails⟩ := (within _ _ enters).fails
    rw [ran] at fails
    cases fails
  | raised enters ran frames own records left =>
    rename_i fault entered inner after recorded top parent rest later
    have carries := body.carries enters.fits enters.based
    obtain ⟨-, length, lists⟩ := within _ _ enters
    rw [ran] at carries lists
    obtain ⟨frame, bare, -⟩ := enters.bare
    refine ⟨⟨fault, rfl⟩, ?_, ?_⟩
    · rw [bare, List.length_cons, enters.later.settings] at length
      rw [List.length_append, length, List.length_singleton]
      omega
    · rw [frames] at lists
      rw [left, List.reverse_append]
      change RaisedChain.listed _ =
        collapsed ((fault, after.machine.executionTrace) :: _)
      rcases enters.recording numbered carries frames fault with ⟨carried, there, same, is⟩ |
        ⟨other, is⟩
      · rw [is]
        refine listed_same (Eq.trans ?_ lists) same _
        change _ = carriedList top.exception
        rw [there]
        rfl
      · rw [is]
        exact listed_new lists other _ _

theorem Invocation.deep {outcome : Except Fault Unit} {last : Machine I H}
    {here : List (Raise I H)} (invocation : Invocation body command run outcome last here)
    (deep : run.machine.settings.maxDepth ≤ run.machine.frames.length) :
    last = run.machine ∧ here = [] := by
  cases invocation with
  | refused => exact ⟨rfl, rfl⟩
  | passed enters | raised enters => exact absurd enters.shallow (Nat.not_lt_of_le deep)

/-- A nest that is run on a frame that carries nothing leaves there what the raises in it collapse
to. -/
theorem Straight.lists (straight : Straight levels tree) (fits : run.Fits ctx)
    (based : run.machine.frames ≠ []) (numbered : run.machine.Numbered)
    (empty : run.machine.frames.head?.bind (·.exception) = none) :
    Lists levels run.machine (tree.left ctx run).1 (tree.left ctx run).2.machine
      (tree.raises ctx run) := by
  induction straight generalizing ctx run with
  | raise fault => exact ⟨⟨fault, rfl⟩, (Nat.zero_min _).symm, congrArg carriedList empty⟩
  | mint mints ih =>
    rename_i levels cause next
    obtain ⟨fault, world, restores, left, raises⟩ := left_mint cause next ctx run
    rw [left, raises]
    exact ih fault (fits.later restores) based numbered empty
  | invoke inner raises ih_inner ih_next =>
    rename_i levels command plain body next
    obtain ⟨here, invocation, splits⟩ := invocation fits based body command
    obtain ⟨fault, world, fails, none_raised⟩ := (raises (body.invoked command ctx run).1).leaf rfl
      ctx (body.invoked command ctx run).2
    rw [splits, left_invoke, fails, none_raised, List.append_nil]
    by_cases shallow : run.machine.frames.length < run.machine.settings.maxDepth
    · obtain ⟨-, length, lists⟩ := invocation.lists numbered shallow fun entered inner enters =>
        ih_inner enters.fits enters.based (enters.later.numbered numbered) enters.empty
      exact ⟨⟨fault, rfl⟩, length, lists⟩
    -- A level that is too deep is refused, with all that is in it.
    · have deep := Nat.le_of_not_lt shallow
      obtain ⟨same, none_raised⟩ := invocation.deep deep
      rw [same, none_raised]
      refine ⟨⟨fault, rfl⟩, ?_, congrArg carriedList empty⟩
      rw [Nat.sub_eq_zero_of_le deep]
      rfl

end CallTree

/-- Whether the frame on top carries a chain that lists certain faults with their traces, and the
run failure that is built from it lists the same. -/
def Machine.Shows (m : Machine I H) (told : List Told) : Prop :=
  ∃ top rest chain, m.frames = top :: rest ∧ top.exception = some chain ∧ chain.listed = told ∧
    chain.failure.listed = told

theorem CallTree.Lists.shows {levels : Nat} {m last : Machine I H} {outcome : Except Fault Unit}
    {here : List (Raise I H)} (lists : CallTree.Lists levels m outcome last here)
    (some_raise : 0 < here.length) : last.Shows (collapsed (here.reverse.map Raise.told)) := by
  obtain ⟨-, -, lists⟩ := lists
  cases raised : here.reverse.map Raise.told with
  | nil =>
    rw [List.map_eq_nil_iff, List.reverse_eq_nil_iff] at raised
    rw [raised] at some_raise
    exact absurd some_raise (Nat.lt_irrefl 0)
  | cons first others =>
    obtain ⟨entry, rest, collapses, -⟩ := collapsed_cons first others
    rw [raised, collapses] at lists
    rw [collapses]
    cases frames : last.frames with
    | nil =>
      rw [frames] at lists
      cases lists
    | cons top below =>
      rw [frames] at lists
      cases carries : top.exception with
      | none =>
        change carriedList top.exception = _ at lists
        rw [carries] at lists
        cases lists
      | some chain =>
        change carriedList top.exception = _ at lists
        rw [carries] at lists
        exact ⟨top, below, chain, frames, carries, lists, (failure_listed chain).trans lists⟩

namespace Session

open CallTree

theorem Reached.fits {s : Session I H} (reached : Reached Knows s)
    (running : s.run.machine.isRunning = true) : ∃ ctx, s.run.Fits ctx := by
  have housed := reached.housed fun _ _ knows => knows
  obtain ⟨ctx, now⟩ : ∃ ctx, s.run.machine.current = .ok ctx := by
    obtain ⟨global, started⟩ := Option.isSome_iff_exists.mp running
    unfold Machine.current
    cases s.run.machine.contexts with
    | nil => exact ⟨global, by simp only [started]⟩
    | cons top rest => exact ⟨top, rfl⟩
  exact ⟨ctx, now, (housed.working ctx (Machine.current_working now)).layer⟩

/-- In every tree of invocations a raise writes on the frame below what its own frame carries for
that very fault, or a new exception that interrupts what its own frame carries. So a nest in which
every level raises leaves the chain of its faults on the frame below it, and the failure that is
built from that lists the same. -/
theorem raises_recorded {s : Session I H} (reached : Reached Knows s)
    (running : s.run.machine.isRunning = true) :
    ∃ ctx, s.run.machine.current = .ok ctx ∧
      (∀ tree : CallTree, ∀ raise ∈ tree.raises ctx s.run, raise.Lawful) ∧
      ∀ levels command plain body, Straight levels body →
        s.run.machine.frames.length < s.run.machine.settings.maxDepth →
        ((alone command plain body).raises ctx s.run).length = min (levels + 1)
            (s.run.machine.settings.maxDepth - s.run.machine.frames.length) ∧
          ((alone command plain body).left ctx s.run).2.machine.Shows
            (collapsed (((alone command plain body).raises ctx s.run).reverse.map Raise.told)) := by
  obtain ⟨ctx, fits⟩ := reached.fits running
  have based := reached.based (Option.isSome_iff_ne_none.mp running)
  have numbered := reached.numbered
  refine ⟨ctx, fits.current, fun tree => tree.lawful fits based numbered, ?_⟩
  intro levels command plain body straight shallow
  obtain ⟨here, invocation, splits⟩ := invocation fits based body command
  have lists := invocation.lists numbered shallow fun entered inner enters =>
    straight.lists enters.fits enters.based (enters.later.numbered numbered) enters.empty
  have raises : (alone command plain body).raises ctx s.run = here := by
    rw [alone, splits]
    exact List.append_nil here
  rw [raises, alone, left_invoke]
  refine ⟨lists.length, lists.shows ?_⟩
  rw [lists.length]
  omega

/-! ### A nest of three levels -/

def nestUnit : Command := ⟨0, "u", .plain, some ⟨"u.xml", ⟨"urn:sample", "u"⟩⟩, none, none⟩

/-- Within the outermost level a unit passes on the fault that a command in it raised. -/
def passingOn : CallTree :=
  .invoke nestUnit rfl
    (.invoke (.named 1 "a") rfl (.raise boom) fun _ => .raise boom) fun _ => .raise otherFault

theorem passing_on_straight : Straight 2 passingOn :=
  .invoke (.invoke (.raise boom) fun _ => .raise boom) fun _ => .raise otherFault

def startedGlobal : Context Unit Unit :=
  ⟨⟨0, 0, .execution, .empty, .int 1, ⟨0, []⟩, true⟩, []⟩

def unitTrace : List TraceElement :=
  [⟨some "u.xml", some ⟨"urn:sample", "u"⟩,
    some (.unknown EngineSettings.standard.unknownLocation)⟩]

theorem passing_on_raises :
    ((alone (.named 2 "b") rfl passingOn).raises startedGlobal startedRun.run).reverse.map
      Raise.told = [(otherFault, []), (boom, unitTrace), (boom, unitTrace)] := by
  rfl

/-- The chain lists the fault that was raised twice once. -/
theorem passing_on_recorded :
    Reached Knows startedRun ∧ startedRun.run.machine.isRunning = true ∧
      startedRun.run.machine.current = .ok startedGlobal ∧
      ((alone (.named 2 "b") rfl passingOn).left startedGlobal startedRun.run).2.machine.Shows
        [(otherFault, []), (boom, unitTrace)] := by
  have reached : Reached Knows startedRun := ⟨_, _, _, Leads.refl.step nofun⟩
  obtain ⟨ctx, now, -, nests⟩ := raises_recorded reached rfl
  obtain rfl : startedGlobal = ctx := Except.ok.inj now
  have shows := (nests 2 (.named 2 "b") rfl passingOn passing_on_straight (by decide)).2
  rw [passing_on_raises] at shows
  exact ⟨reached, rfl, rfl, shows⟩

end Session
end CommandChain
