import CommandChain.World

/-!
Computations that end with a value or with an error, and with a state either way: how they run, and
which relations they keep between the state they find and the state they leave. A relation that is
reflexive and transitive is kept by a computation that is made of computations that keep it.
-/
namespace CommandChain

variable {ε ε' σ α β : Type}

def outcomeOf : EStateM.Result ε σ α → Except ε α × σ
  | .ok a s => (.ok a, s)
  | .error e s => (.error e, s)

theorem get_apply (s : σ) : (get : EStateM ε σ σ) s = .ok s s := rfl

theorem modify_apply (change : σ → σ) (s : σ) :
    (modify change : EStateM ε σ PUnit) s = .ok ⟨⟩ (change s) := rfl

theorem modifyGet_apply (change : σ → α × σ) (s : σ) :
    (modifyGet change : EStateM ε σ α) s = .ok (change s).1 (change s).2 := rfl

theorem bind_apply (x : EStateM ε σ α) (f : α → EStateM ε σ β) (s : σ) :
    (x >>= f) s = match x s with
      | .ok a s => f a s
      | .error e s => .error e s := rfl

theorem map_apply (f : α → β) (x : EStateM ε σ α) (s : σ) :
    (f <$> x) s = match x s with
      | .ok a s => .ok (f a) s
      | .error e s => .error e s := rfl

theorem outcomeOf_map (f : α → β) (x : EStateM ε σ α) (s : σ) :
    outcomeOf ((f <$> x) s) = ((outcomeOf (x s)).1.map f, (outcomeOf (x s)).2) := by
  rw [map_apply]
  cases x s <;> rfl

/-- Whether a computation leaves every state related to the one it found. -/
def Keeps (R : σ → σ → Prop) (x : EStateM ε σ α) : Prop := ∀ s, R s (outcomeOf (x s)).2

structure IsSteady (R : σ → σ → Prop) : Prop where
  refl (s : σ) : R s s
  trans {s middle last : σ} (first : R s middle) (second : R middle last) : R s last

namespace Keeps

variable {R : σ → σ → Prop}

theorem of_pure (steady : IsSteady R) (a : α) : Keeps R (pure a : EStateM ε σ α) := steady.refl

theorem of_throw (steady : IsSteady R) (e : ε) :
    Keeps R (throw e : EStateM ε σ α) := steady.refl

theorem of_get (steady : IsSteady R) : Keeps R (get : EStateM ε σ σ) := steady.refl

theorem of_modify {change : σ → σ} (keeps : ∀ s, R s (change s)) :
    Keeps R (modify change : EStateM ε σ PUnit) := keeps

theorem of_modifyGet {change : σ → α × σ} (keeps : ∀ s, R s (change s).2) :
    Keeps R (modifyGet change : EStateM ε σ α) := keeps

theorem bind (steady : IsSteady R) {x : EStateM ε σ α} {f : α → EStateM ε σ β} (first : Keeps R x)
    (second : ∀ a, Keeps R (f a)) : Keeps R (x >>= f) := by
  intro s
  have before := first s
  rw [bind_apply]
  cases ran : x s with
  | error e s' =>
    rw [ran] at before
    exact before
  | ok a s' =>
    rw [ran] at before
    exact steady.trans before (second a s')

theorem adaptExcept {x : EStateM ε σ α} (keeps : Keeps R x) (f : ε → ε') :
    Keeps R (x.adaptExcept f) := by
  intro s
  have after := keeps s
  unfold EStateM.adaptExcept
  cases ran : x s <;> rw [ran] at after <;> exact after

end Keeps
end CommandChain
