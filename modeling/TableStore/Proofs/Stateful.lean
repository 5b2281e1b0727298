import TableStore.Session

/-
Monads as transition systems.

A storage is a monad with five calls, and what a session does with it is followed here from world to
world: `Stateful.run x w` is what the action `x` answers in the world `w`, together with the world
that it leaves.  Memory is its own world, a monad transformer puts its state or its environment in
front of the world below, so the world of a session over watched memory is a session, a watch and a
memory.
-/
namespace TableStore

/-- A monad whose actions take worlds to worlds. -/
class Stateful (m : Type → Type) [Monad m] (σ : outParam Type) where
  run {α : Type} : m α → σ → α × σ
  run_pure {α : Type} (a : α) (w : σ) : run (pure a) w = (a, w)
  run_bind {α β : Type} (x : m α) (f : α → m β) (w : σ) :
    run (x >>= f) w = run (f (run x w).1) (run x w).2

namespace Stateful

attribute [simp] run_pure run_bind

instance {σ : Type} : Stateful (StateM σ) σ where
  run x w := StateT.run x w
  run_pure _ _ := rfl
  run_bind _ _ _ := rfl

section Transformers

variable {m : Type → Type} [Monad m] {σ τ : Type} [Stateful m σ]

instance : Stateful (StateT τ m) (τ × σ) where
  run x w := ((run (x.run w.1) w.2).1.1, (run (x.run w.1) w.2).1.2, (run (x.run w.1) w.2).2)
  run_pure a w := by simp
  run_bind x f w := by simp

instance : Stateful (ReaderT τ m) (τ × σ) where
  run x w := ((run (x.run w.1) w.2).1, w.1, (run (x.run w.1) w.2).2)
  run_pure a w := by simp
  run_bind x f w := by simp

theorem run_stateT {α : Type} (x : StateT τ m α) (t : τ) (w : σ) :
    run x (t, w) = ((run (x.run t) w).1.1, (run (x.run t) w).1.2, (run (x.run t) w).2) := rfl

theorem run_readerT {α : Type} (x : ReaderT τ m α) (t : τ) (w : σ) :
    run x (t, w) = ((run (x.run t) w).1, t, (run (x.run t) w).2) := rfl

@[simp] theorem run_get (w : τ × σ) : run (get : StateT τ m τ) w = (w.1, w) := by
  obtain ⟨t, w⟩ := w
  simp [run_stateT]

@[simp] theorem run_modify (f : τ → τ) (w : τ × σ) :
    run (modify f : StateT τ m PUnit) w = (PUnit.unit, f w.1, w.2) := by
  obtain ⟨t, w⟩ := w
  have hmodify : (modify f : StateT τ m PUnit).run t = pure (PUnit.unit, f t) := rfl
  rw [run_stateT, hmodify, run_pure]

@[simp] theorem run_lift {α : Type} (x : m α) (w : τ × σ) :
    run (StateT.lift x : StateT τ m α) w = ((run x w.2).1, w.1, (run x w.2).2) := by
  obtain ⟨t, w⟩ := w
  simp [run_stateT, StateT.lift, StateT.run]

end Transformers

/-! ## Actions that may fail -/

section Failing

variable {m : Type → Type} [Monad m] {σ ε : Type} [Stateful m σ]

/-- A failure of the first of two actions is the failure of both, in the world that it leaves. -/
theorem run_exceptT_bind {α β : Type} (x : ExceptT ε m α) (f : α → ExceptT ε m β) (w : σ) :
    run (x >>= f).run w =
      match run x.run w with
      | (.ok a, w') => run (f a).run w'
      | (.error e, w') => (.error e, w') := by
  rw [ExceptT.run_bind, run_bind]
  obtain ⟨r, w'⟩ := run x.run w
  cases r <;> simp

/-- Of two actions that fail together, the first fails or hands its result to one that does. -/
theorem run_exceptT_bind_eq_error {α β : Type} {x : ExceptT ε m α} {f : α → ExceptT ε m β}
    {w w' : σ} {e : ε} (h : run (x >>= f).run w = (.error e, w')) :
    run x.run w = (.error e, w') ∨
      ∃ a w₁, run x.run w = (.ok a, w₁) ∧ run (f a).run w₁ = (.error e, w') := by
  rw [run_exceptT_bind] at h
  rcases hx : run x.run w with ⟨e' | a, w₁⟩
  · rw [hx] at h
    cases h
    exact .inl rfl
  · rw [hx] at h
    exact .inr ⟨a, w₁, rfl, h⟩

/-- Of two actions that succeed together, both succeed. -/
theorem run_exceptT_bind_eq_ok {α β : Type} {x : ExceptT ε m α} {f : α → ExceptT ε m β} {w w' : σ}
    {b : β} (h : run (x >>= f).run w = (.ok b, w')) :
    ∃ a w₁, run x.run w = (.ok a, w₁) ∧ run (f a).run w₁ = (.ok b, w') := by
  rw [run_exceptT_bind] at h
  rcases hx : run x.run w with ⟨e | a, w₁⟩
  · rw [hx] at h
    cases h
  · rw [hx] at h
    exact ⟨a, w₁, rfl, h⟩

@[simp] theorem run_exceptT_pure {α : Type} (a : α) (w : σ) :
    run (pure a : ExceptT ε m α).run w = (.ok a, w) := by
  simp [ExceptT.run_pure]

@[simp] theorem run_exceptT_mk_pure {α : Type} (r : Except ε α) (w : σ) :
    run (ExceptT.mk (pure r) : ExceptT ε m α).run w = (r, w) := by
  simp

theorem run_exceptT_get {τ : Type} (w : τ × σ) :
    run (get : ExceptT ε (StateT τ m) τ).run w = (.ok w.1, w) := by
  obtain ⟨t, w⟩ := w
  show run (Except.ok <$> (get : StateT τ m τ)) (t, w) = _
  simp [run_stateT, Functor.map, StateT.map, StateT.run, get, getThe, MonadStateOf.get, StateT.get]

theorem run_exceptT_modify {τ : Type} (f : τ → τ) (w : τ × σ) :
    run (modify f : ExceptT ε (StateT τ m) PUnit).run w = (.ok PUnit.unit, f w.1, w.2) := by
  obtain ⟨t, w⟩ := w
  have hmodify : (modify f : ExceptT ε (StateT τ m) PUnit).run.run t =
      pure (PUnit.unit, f t) >>= fun p => pure (.ok p.1, p.2) := rfl
  rw [run_stateT, hmodify, run_bind, run_pure, run_pure]

end Failing

end Stateful
end TableStore
