import CommandChain.Machine.Invocation
import CommandChain.Proofs.Machine.Perform

/-!
What programs make of the run that they find, whatever they do with the state of their own. There is
one rule for each way to put a program together, and one for a machine operation in a program, which
ends as its call does.
-/
namespace CommandChain.Program

variable {I H S ε ε' α β : Type}

theorem operation_effect {call : Call I H} {operation : MachineM I H α}
    {tells : α → Option (Context I H)} (acts : call.act = tells <$> operation) (run : Run I H) :
    Effect run call (Except.map tells (outcomeOf (operation run)).1)
      (outcomeOf (operation run)).2 := by
  have effect := Machine.perform_effect run call
  rwa [Call.perform, acts, outcomeOf_map] at effect

/-- Whether a program that finds a run with `P` leaves one with `Q`, or one with `E` if it fails. -/
def Ends (P : Run I H → Prop) (x : Program I H S ε α) (Q : α → Run I H → Prop)
    (E : Run I H → Prop) : Prop :=
  ∀ run s, P run → match x (run, s) with
    | .ok a (run, _) => Q a run
    | .error _ (run, _) => E run

namespace Ends

variable {P P' E E' : Run I H → Prop} {Q Q' : α → Run I H → Prop} {R : β → Run I H → Prop}

theorem mono {x : Program I H S ε α} (ends : Ends P x Q E) (strengthens : ∀ run, P' run → P run)
    (weakens : ∀ a run, Q a run → Q' a run) (weakens_error : ∀ run, E run → E' run) :
    Ends P' x Q' E' := by
  intro run s holds
  have after := ends run s (strengthens run holds)
  cases ran : x (run, s) with
  | ok a left =>
    rw [ran] at after
    exact weakens a left.1 after
  | error error left =>
    rw [ran] at after
    exact weakens_error left.1 after

theorem assuming {fact : Prop} {x : Program I H S ε α} (ends : fact → Ends P x Q E) :
    Ends (fun run => fact ∧ P run) x Q E :=
  fun run s found => ends found.1 run s found.2

theorem of_pure {a : α} (holds : ∀ run, P run → Q a run) :
    Ends P (pure a : Program I H S ε α) Q E :=
  fun run _ found => holds run found

theorem of_throw {e : ε} (holds : ∀ run, P run → E run) :
    Ends P (throw e : Program I H S ε α) Q E :=
  fun run _ found => holds run found

theorem of_get {Q : Run I H × S → Run I H → Prop} (holds : ∀ run s, P run → Q (run, s) run) :
    Ends P (get : Program I H S ε (Run I H × S)) Q E :=
  fun run s found => holds run s found

theorem of_modify {change : Run I H × S → Run I H × S}
    (holds : ∀ run s, P run → P (change (run, s)).1) :
    Ends P (modify change : Program I H S ε PUnit) (fun _ => P) E :=
  fun run s found => holds run s found

theorem bind {x : Program I H S ε β} {f : β → Program I H S ε α} (first : Ends P x R E)
    (second : ∀ b, Ends (R b) (f b) Q E) : Ends P (x >>= f) Q E := by
  intro run s holds
  have middle := first run s holds
  rw [bind_apply]
  cases ran : x (run, s) with
  | ok b left =>
    rw [ran] at middle
    exact second b left.1 left.2 middle
  | error error left =>
    rw [ran] at middle
    exact middle

theorem attempt {x : Program I H S ε α} (ends : Ends P x Q E) :
    Ends P (CommandChain.attempt x : Program I H S ε' (Except ε α))
      (fun outcome => match outcome with
        | .ok a => Q a
        | .error _ => E) E' := by
  intro run s holds
  have after := ends run s holds
  unfold CommandChain.attempt
  cases ran : x (run, s) <;> rw [ran] at after <;> exact after

/-- As `attempt`, where it makes no difference how the program ends. -/
theorem attempt_either {x : Program I H S ε α} (ends : Ends P x (fun _ => E) E) :
    Ends P (CommandChain.attempt x : Program I H S ε' (Except ε α)) (fun _ => E) E' := by
  refine ends.attempt.mono (fun _ found => found) ?_ (fun _ left => left)
  rintro (error | a) run left <;> exact left

theorem of_effect (call : Call I H) {operation : MachineM I H α} {tells : α → Option (Context I H)}
    (acts : call.act = tells <$> operation)
    (ends : ∀ run run' outcome, P run → outcomeOf (operation run) = (outcome, run') →
      Effect run call (Except.map tells outcome) run' →
      match outcome with
      | .ok a => Q a run'
      | .error _ => E run') :
    Ends P (ofMachine operation : Program I H S ExecutionError α) Q E := by
  intro run s holds
  have after := ends _ _ _ holds rfl (operation_effect acts run)
  simp only [ofMachine]
  cases ran : operation run <;> rw [ran] at after <;> exact after

end Ends
end CommandChain.Program
