import CommandChain.Context.Error
import CommandChain.Selector.Evaluate

/-!
Resolution of names. A name that is registered as a component is looked up at the nearest node of
the component's scope, and made there on first request; any other name is a variable declared at the
node itself. Making a component evaluates selectors, which resolve further names.

A table knows what is being made for it, and a component that is asked for while it is being made
depends on itself. What is being made is also handed down as a list of marks, a table and a name
each. Each creation adds a mark that was not there, for a node of the chain and a name of its
registry, so creation cannot go on without end.
-/
namespace CommandChain

/-- A component that is being made: for which table, under which name. -/
abbrev Mark := Nat × QName

namespace Resolve

variable {I H : Type}

/-- The names that could still be made for a node. -/
def openNames (busy : List Mark) (node : Node I H) : Nat :=
  node.registry.componentNames.countP fun name => !busy.contains (node.table, name)

/-- How many creations a chain of nodes leaves room for. -/
def room (busy : List Mark) : List (Node I H) → Nat
  | [] => 0
  | node :: rest => openNames busy node + room busy rest

theorem openNames_cons_le (busy : List Mark) (mark : Mark) (node : Node I H) :
    openNames (mark :: busy) node ≤ openNames busy node := by
  apply List.countP_mono_left
  intro name _ free
  simp_all

theorem room_cons_le (busy : List Mark) (mark : Mark) (nodes : List (Node I H)) :
    room (mark :: busy) nodes ≤ room busy nodes := by
  induction nodes with
  | nil => exact Nat.le_refl _
  | cons node rest ih => exact Nat.add_le_add (openNames_cons_le busy mark node) ih

theorem mem_componentNames {registry : Registry I H} {name : QName} {d : Descriptor I H}
    (found : registry.descriptor? name = some d) : name ∈ registry.componentNames := by
  unfold Registry.descriptor? at found
  unfold Registry.componentNames OrderedMap.keys
  generalize registry.components = entries at found
  induction entries with
  | nil => simp [OrderedMap.find?] at found
  | cons pair rest ih =>
    obtain ⟨key, value⟩ := pair
    by_cases same : key = name
    · simp [same]
    · simp only [OrderedMap.find?, same, if_false] at found
      simpa [Ne.symm same] using ih found

theorem countP_lt_countP {α : Type} {p q : α → Bool} {items : List α} {a : α} (member : a ∈ items)
    (weaker : ∀ b, p b = true → q b = true) (before : q a = true) (after : p a = false) :
    items.countP p < items.countP q := by
  induction items with
  | nil => simp at member
  | cons b rest ih =>
    have mono : rest.countP p ≤ rest.countP q := List.countP_mono_left fun b _ => weaker b
    simp only [List.countP_cons]
    rcases List.mem_cons.mp member with same | later
    · subst same
      simp only [before, after, if_true]
      simpa using Nat.lt_succ_of_le mono
    · have strict := ih later
      cases hp : p b with
      | false => simpa using Nat.lt_of_lt_of_le strict (Nat.le_add_right _ _)
      | true => simpa [weaker b hp] using strict

theorem room_mark_lt {busy : List Mark} {ctx : Context I H} {name : QName} {d : Descriptor I H}
    (registered : ctx.registry.descriptor? name = some d)
    (free : busy.contains (ctx.node.table, name) = false) :
    room ((ctx.node.table, name) :: busy) ctx.nodes < room busy ctx.nodes := by
  have fewer : openNames ((ctx.node.table, name) :: busy) ctx.node < openNames busy ctx.node := by
    apply countP_lt_countP (mem_componentNames registered)
    · intro other
      simp_all
    · simp_all
    · simp
  exact Nat.add_lt_add_of_lt_of_le fewer (room_cons_le busy _ ctx.ancestors)

def ensureLive (ctx : Context I H) : WorldM I H ResolveError Unit := do
  if (← get).isReleased ctx then throw (.released ctx.scope)

def readName (ctx : Context I H) (text : String) : WorldM I H QNameError QName := do
  let w ← get
  match QName.parse text (w.namespaceUri? ctx) with
  | .ok name => pure name
  | .error error => throw error

def readNameIn (ctx : Context I H) (text : String) : WorldM I H SelectorError QName :=
  (readName ctx text).adaptExcept fun error => (ResolveError.qname error).toSelectorError

/-- What selectors see of a node: variables by `lookup`, and the functions of its registry. -/
def environment (ctx : Context I H) (lookup : QName → WorldM I H ResolveError (Option Value)) :
    Selector.Environment (World I H) where
  valueOf text := do
    let name ← readNameIn ctx text
    (lookup name).adaptExcept ResolveError.toSelectorError
  call text args := do
    let name ← readNameIn ctx text
    match ctx.registry.function? name with
    | none => throw (.undefinedFunction name.text)
    | some function =>
      match function args with
      | .ok value => pure value
      | .error error => throw error

def evaluateWith (ctx : Context I H) (lookup : QName → WorldM I H ResolveError (Option Value)) :
    Lifecycle.Evaluator I H :=
  fun text => Selector.evaluate text ctx.subject (environment ctx lookup)

/-- Makes a component, tells if that fails, and caches it if it does not. -/
def createAndCache (ctx : Context I H) (name : QName) (d : Descriptor I H)
    (lookup : QName → WorldM I H ResolveError (Option Value)) :
    WorldM I H ResolveError ComponentRef := do
  modify (·.beginMaking ctx name)
  let outcome ← attempt (Lifecycle.create (evaluateWith ctx lookup) d ctx)
  modify (·.endMaking ctx name outcome.toOption)
  match outcome with
  | .error error =>
    modify (·.note .error ("error creating component " ++ name.text ++ ": " ++ error.message))
    throw (.lifecycle error)
  | .ok ref =>
    modify (·.changeTable ctx (·.cache name ⟨ref, d⟩))
    pure ref

/-- The component of a name in the table of a node, made by `create` if it is not there and is not
being made already. -/
def fetch (busy : List Mark) (ctx : Context I H) (name : QName)
    (create : (d : Descriptor I H) → ctx.registry.descriptor? name = some d →
      busy.contains (ctx.node.table, name) = false → WorldM I H ResolveError ComponentRef) :
    WorldM I H ResolveError (Option ComponentRef) := do
  ensureLive ctx
  match ((← get).tableOf ctx).component? name with
  | some ref => pure (some ref)
  | none =>
    match registered : ctx.registry.descriptor? name with
    | none => pure none
    | some d =>
      match free : busy.contains (ctx.node.table, name) with
      | true => throw (.circularComponent name)
      | false =>
        if ((← get).tableOf ctx).creating.contains name then throw (.circularComponent name)
        else some <$> create d registered free

/-- The value of a name at a node. A component is looked up by the nearest node of its scope, and an
outer node may know the name where this one's registry and that one's differ. -/
def lookup (busy : List Mark) (ctx : Context I H) (name : QName) :
    WorldM I H ResolveError (Option Value) := do
  ensureLive ctx
  let found ← match ctx.registry.descriptor? name with
    | none => pure none
    | some d =>
      if d.scope = ctx.scope then do
        let ref? ← fetch busy ctx name fun d registered free =>
          createAndCache ctx name d fun other =>
            have _less := room_mark_lt registered free
            lookup ((ctx.node.table, name) :: busy) ctx other
        pure (ref?.map Value.component)
      else match _outer : ctx.ancestors with
        | [] => throw (.componentOutOfReach name d.scope)
        | node :: rest =>
          lookup busy ⟨node, rest⟩ name
  match found with
  | some value => pure (some value)
  | none => pure (OrderedMap.find? ((← get).tableOf ctx).declared name)
termination_by room busy ctx.nodes + ctx.ancestors.length
decreasing_by
  · exact Nat.add_lt_add_right _less _
  · have shape : ctx.nodes = ctx.node :: node :: rest := by rw [← _outer]; rfl
    rw [shape, _outer]
    show room busy (node :: rest) + rest.length < _
    simp only [room, List.length_cons]
    omega

end Resolve
end CommandChain
