import Mathlib.Logic.Relation

/-!
# Emitting code from a state that only steps

A code generator threads a state through a tree and emits items on the
way. `Emitter` is such a computation, with a promise as a field: the state
it ends in is reached by steps of `Step`, so whatever every step
preserves, every generator preserves (`Emitter.preserves`).
-/

namespace Ail.Lib

open Relation

/-- What one run of a generator gives. -/
structure Emitted (σ ι α : Type) where
  value : α
  items : List ι
  state : σ

/-- A generator whose state changes by steps only. -/
structure Emitter {σ : Type} (Step : σ → σ → Prop) (ι α : Type) where
  run : σ → Emitted σ ι α
  reaches : ∀ s, ReflTransGen Step s (run s).state

namespace Emitter

variable {σ ι α β : Type} {Step : σ → σ → Prop}

instance instMonad : Monad (Emitter Step ι) where
  pure a := ⟨fun s => ⟨a, [], s⟩, fun _ => .refl⟩
  bind m f :=
    ⟨fun s =>
        let first := m.run s
        let second := (f first.value).run first.state
        ⟨second.value, first.items ++ second.items, second.state⟩,
      fun s => (m.reaches s).trans ((f _).reaches _)⟩

/-- Emit items. -/
def emit (items : List ι) : Emitter Step ι Unit := ⟨fun s => ⟨(), items, s⟩, fun _ => .refl⟩

/-- Read the state. -/
def read (get : σ → α) : Emitter Step ι α := ⟨fun s => ⟨get s, [], s⟩, fun _ => .refl⟩

/-- Make one step. -/
def step (next : σ → α × σ) (hstep : ∀ s, Step s (next s).2) : Emitter Step ι α :=
  ⟨fun s => ⟨(next s).1, [], (next s).2⟩, fun s => .single (hstep s)⟩

variable (m : Emitter Step ι α)

/-- Run a generator and return its items beside its value. -/
def capture : Emitter Step ι (α × List ι) :=
  ⟨fun s => ⟨((m.run s).value, (m.run s).items), [], (m.run s).state⟩, m.reaches⟩

/-- Run a generator from a changed state and undo the change. -/
def bracket (enter : σ → σ) (leave : σ → σ → σ)
    (hreaches : ∀ s s', ReflTransGen Step (enter s) s' → ReflTransGen Step s (leave s s'))
    (m : Emitter Step ι α) : Emitter Step ι α :=
  ⟨fun s =>
      let inner := m.run (enter s)
      { inner with state := leave s inner.state },
    fun s => hreaches s _ (m.reaches (enter s))⟩

/-- The second generator runs from the state of the first, behind its items. -/
theorem run_bind (f : α → Emitter Step ι β) (s : σ) :
    (m >>= f).run s =
      ⟨((f (m.run s).value).run (m.run s).state).value,
        (m.run s).items ++ ((f (m.run s).value).run (m.run s).state).items,
        ((f (m.run s).value).run (m.run s).state).state⟩ := rfl

/-- What every step preserves, every generator preserves. -/
theorem preserves {P : σ → Prop} (hstep : ∀ s s', Step s s' → P s → P s') {s s' : σ}
    (hreaches : ReflTransGen Step s s') (hs : P s) : P s' := by
  induction hreaches with
  | refl => exact hs
  | tail _ hlast ih => exact hstep _ _ hlast ih

end Emitter

end Ail.Lib
