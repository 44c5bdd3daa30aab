import CommandChain.Proofs.SelectorGrammar
import CommandChain.Proofs.World.Unmarking

/-!
What a component is fed does not depend on who asked for it first, but for the bindings in force. A
selector may ask for a component that has to be made on the spot, at a node that it shares with the
one being fed; then the bindings of the point that asked stand while the points of the other are
fed. Apart from them nothing of the one that asked is seen.
-/
namespace CommandChain

variable {I H : Type}

theorem Resolve.Wants.layers {busy : List Mark} {ctx : Context I H} {name other : QName}
    {d : Descriptor I H} {w w' : World I H} {point : InjectionPoint I H}
    (wants : Wants ctx d (lookup busy ctx) (w.beginMaking ctx name) point other w') (id : Nat) :
    w'.layers.get id = (w.overrideBindings ctx point.injection.mappings).2.layers.get id := by
  obtain ⟨between, before, after⟩ := wants.kept World.resolves_rules [] fun asked =>
    lookup_keeps World.resolves_rules asked ctx fun _ _ => trivial
  have started (id : Nat) : between.layers.get id = w.layers.get id := before.layers id
  rw [after.layers]
  simp only [World.overrideBindings, Namespaces.applyOverride, get_set_layer, started]

namespace Demand

variable {asker asked : Demand I H} {point : InjectionPoint I H}

/-- The same demand in another world, on behalf of nobody. -/
def directly (asked : Demand I H) (world : World I H) : Demand I H :=
  { asked with marks := [], world }

theorem Calls.bound (calls : Calls (· = point) asker asked) {start : World I H}
    (alike : start.AlikeBut asked.marks { asked.world with layers := asker.world.layers }) :
    (start.overrideBindings asker.ctx point.injection.mappings).2.AlikeBut asked.marks
      asked.world := by
  obtain ⟨d, -, point, name, w, owner, rfl, wants, -, rfl⟩ := calls
  refine { alike with layers := fun id => ?_ }
  rw [wants.layers]
  simp only [World.overrideBindings, Namespaces.applyOverride, get_set_layer]
  have started := alike.layers
  simp only at started
  simp only [started]

/-- A component that a point of another one asks for is made and fed as it would be directly if the
bindings of the point were in force, whoever else is being made, as long as it demands none of
those; so it is fed as it would be directly if those bindings are none but what was in force. -/
theorem injected_under_bindings (calls : Calls (· = point) asker asked) {start : World I H}
    (alike : start.AlikeBut asked.marks { asked.world with layers := asker.world.layers })
    (spares : (asked.directly
      (start.overrideBindings asker.ctx point.injection.mappings).2).Spares asked.marks) :
    let bound := (start.overrideBindings asker.ctx point.injection.mappings).2
    Matches (World.AlikeBut asked.marks) (asked.ctx.component? asked.name bound) asked.answer ∧
      ∀ d, (asked.Creates d ↔ (asked.directly bound).Creates d) ∧
        (asked.Creates d →
          asked.injected d = (asked.directly bound).injected d ∧
          ((∀ id, bound.layers.get id = start.layers.get id) →
            asked.injected d = (asked.directly start).injected d)) := by
  intro bound
  have alike' := calls.bound alike
  have same : Resolve.MarkedAlike asked.marks [] asked.marks := fun mark apart =>
    ⟨fun marked => absurd marked apart, nofun⟩
  refine ⟨answer_alike alike' same spares, fun d => ?_⟩
  have creates := creates_iff (d := d) alike' same spares
  refine ⟨creates, fun asks => ?_⟩
  have fed := injected_alike alike' same spares (creates.mp asks)
  refine ⟨fed, fun silent => fed.trans ?_⟩
  have rebound : bound.AlikeBut [] start := World.alikeBut_of_layers fun id => (silent id).symm
  exact (injected_alike rebound (fun _ _ => .rfl) (fun _ _ => nofun) (creates.mp asks)).symm

/-! A component whose point binds a prefix anew and asks for a second one, which uses the prefix. -/

def word : Descriptor Unit Unit :=
  ((Descriptor.of "Word" ⟨"urn:sample", "word"⟩ ()).inScope .request).field "text" "$v:text"
    fun _ => pure ()

def readerPoint : InjectionPoint Unit Unit :=
  ⟨(Injection.field "word" "$t:word").bind "v" "urn:others", fun _ => pure ()⟩

def reader : Descriptor Unit Unit :=
  ((Descriptor.of "Reader" ⟨"urn:sample", "reader"⟩ ()).inScope .request).inject
    readerPoint.injection readerPoint.assign

def wordRegistry : Registry Unit Unit :=
  ⟨[(word.name, word), (reader.name, reader)], .empty, [("t", "urn:sample"), ("v", "urn:own")]⟩

def wordRoot : Context Unit Unit := ⟨⟨0, 0, .request, wordRegistry, .int 1, ⟨0, []⟩, true⟩, []⟩

/-- Two variables, one in either namespace. -/
def wordWorld : World Unit Unit :=
  ((World.start ()).openRoot wordRegistry (.int 1)).2.changeTable wordRoot fun table =>
    { table with declared :=
      [(⟨"urn:own", "text"⟩, .str "own"), (⟨"urn:others", "text"⟩, .str "another")] }

def readerDemand : Demand Unit Unit := ⟨[], wordRoot, reader.name, wordWorld⟩

/-- The reader is to be fed. -/
def readerBuilt : World Unit Unit :=
  ((wordWorld.beginMaking wordRoot reader.name).addCell "Reader" ()).2

def readerFed : World Unit Unit :=
  (readerBuilt.overrideBindings wordRoot [("v", "urn:others")]).2

def wordDemand : Demand Unit Unit := ⟨[readerDemand.mark], wordRoot, word.name, readerFed⟩

/-- As it would be asked for directly. -/
def wordStart : World Unit Unit :=
  { readerFed.changeTable wordRoot (·.endMaking reader.name) with layers := wordWorld.layers }

theorem read_word : (Selector.read "$t:word").expr = .var "t:word" ⟨[], none⟩ :=
  Selector.read_variable
    (.prefixed (.ascii "t" (by decide) (by decide)) (.ascii "word" (by decide) (by decide))) rfl

theorem read_text : (Selector.read "$v:text").expr = .var "v:text" ⟨[], none⟩ :=
  Selector.read_variable
    (.prefixed (.ascii "v" (by decide) (by decide)) (.ascii "text" (by decide) (by decide))) rfl

theorem reader_calls : Calls (· = readerPoint) readerDemand wordDemand :=
  have creates : readerDemand.Creates reader := ⟨rfl, rfl, rfl, nofun, nofun⟩
  creates.calls readerPoint readerBuilt rfl rfl rfl read_word (by decide +kernel) (.own rfl rfl rfl)

theorem wordStart_alike : wordStart.AlikeBut wordDemand.marks
    { wordDemand.world with layers := readerDemand.world.layers } :=
  World.alikeBut_of_mark { readerFed with layers := wordWorld.layers } wordRoot reader.name

theorem localName_text {resolve : String → Option String} {name : QName}
    (parses : QName.parse "v:text" resolve = .ok name) : name.localName = "text" := by
  have plain : QName.splitUri "v:text".toList = none := by decide
  have split : QName.splitColon "v:text".toList = some (['v'], ['t', 'e', 'x', 't']) := by decide
  simp only [QName.parse, plain, split] at parses
  cases uri : resolve (String.ofList ['v']) <;> simp [uri] at parses
  rw [← parses]
  rfl

theorem word_spares (w : World Unit Unit) :
    (wordDemand.directly w).Spares wordDemand.marks := by
  refine spares_of_last (show wordDemand.mark ∉ wordDemand.marks by decide) ?_
  rintro further ⟨d, creates, point, name, w', owner, -, wants, reaches, -⟩
  obtain rfl : word = d := Option.some.inj creates.registered
  obtain ⟨fed, text, ⟨ref, built, -, feeds⟩, asks, reads⟩ := wants
  obtain ⟨rfl, -⟩ | ⟨_, _, nothing⟩ := feeds
  · have asked : Selector.Asks "$v:text" _ _ fed text w' := asks
    rw [Selector.Asks, read_text, Selector.Expr.Asks] at asked
    obtain ⟨rfl, rfl⟩ := asked
    rw [Resolve.readNameIn_apply] at reads
    split at reads <;> cases reads
    rename_i parses
    have known : name ∈ [word.name, reader.name] := by
      cases reaches with
      | own _ registered _ => exact Resolve.mem_componentNames registered
      | outer _ registered _ _ _ => exact Resolve.mem_componentNames registered
    have text := localName_text parses
    rcases List.mem_pair.mp known with rfl | rfl <;> exact absurd text (by decide)
  · exact nothing.elim

theorem word_creates : wordDemand.Creates word := ⟨rfl, rfl, rfl, by decide, by decide⟩

theorem injected_under_binding_of_reader :
    Calls (· = readerPoint) readerDemand wordDemand ∧
      wordStart.AlikeBut wordDemand.marks
        { wordDemand.world with layers := readerDemand.world.layers } ∧
      (wordDemand.directly (wordStart.overrideBindings wordRoot [("v", "urn:others")]).2).Spares
        wordDemand.marks ∧
      wordDemand.injected word = (wordDemand.directly
        (wordStart.overrideBindings wordRoot [("v", "urn:others")]).2).injected word := by
  have spares := word_spares (wordStart.overrideBindings wordRoot [("v", "urn:others")]).2
  obtain ⟨-, fed⟩ := injected_under_bindings reader_calls wordStart_alike spares
  exact ⟨reader_calls, wordStart_alike, spares, ((fed word).2 word_creates).1⟩

/-- The second component is fed another variable if it is the first that asks for it, although all
bindings, variables and components are the same when it starts to be made. -/
theorem injected_differs_by_asker :
    Calls (· = readerPoint) readerDemand wordDemand ∧
      wordStart.AlikeBut wordDemand.marks
        { wordDemand.world with layers := readerDemand.world.layers } ∧
      (wordDemand.directly wordStart).Spares wordDemand.marks ∧
      wordDemand.Creates word ∧
      wordDemand.injected word ≠ (wordDemand.directly wordStart).injected word := by
  refine ⟨reader_calls, wordStart_alike, word_spares wordStart, word_creates, fun same => ?_⟩
  have asked : (wordDemand.injected word).map (·.bind Value.str?) = [some "another"] := by
    decide +kernel
  have direct : ((wordDemand.directly wordStart).injected word).map (·.bind Value.str?) =
      [some "own"] := by decide +kernel
  rw [same, direct] at asked
  exact absurd asked (by decide)

end Demand
end CommandChain
