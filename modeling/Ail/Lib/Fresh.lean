import Mathlib.Data.List.Basic

/-!
# Drawing numbers and emitting items

Computations that draw fresh numbers from a counter and emit a list of
items on the way, as a translation that names its temporaries does.

`value`, `counter` and `emitted` read off the three results of running
a computation from a counter; each operation has one equation for each
of them, so a computation in `do` notation is taken apart by `simp`.
-/

namespace Ail.Lib

/-- From a counter: a value, the counter reached, the items emitted. -/
def Fresh (ω α : Type) : Type := Nat → α × Nat × List ω

namespace Fresh

variable {ω α β : Type}

variable (m : Fresh ω α) (n : Nat)

def value : α := (m n).1

def counter : Nat := (m n).2.1

def emitted : List ω := (m n).2.2

instance : Monad (Fresh ω) where
  pure a := fun n => (a, n, [])
  bind m f := fun n =>
    ((f (value m n)).value (counter m n), (f (value m n)).counter (counter m n),
      emitted m n ++ (f (value m n)).emitted (counter m n))

instance : LawfulMonad (Fresh ω) :=
  LawfulMonad.mk' (Fresh ω)
    (fun m => funext fun n => by
      show (value m n, counter m n, emitted m n ++ []) = m n
      rw [List.append_nil]; rfl)
    (fun _ _ => rfl)
    (fun m f g => funext fun n => by
      show (_, _, (emitted m n ++ _) ++ _) = (_, _, emitted m n ++ (_ ++ _))
      rw [List.append_assoc]; rfl)

/-- Draw the counter. -/
def next : Fresh ω Nat := fun n => (n, n + 1, [])

/-- Emit one item. -/
def emit (item : ω) : Fresh ω Unit := fun n => ((), n, [item])

variable (close : List ω → α → β)

/-- Run a computation, fold what it emitted into its value, emit nothing. -/
def collect : Fresh ω β :=
  fun n => (close (emitted m n) (value m n), counter m n, [])

@[simp] theorem value_pure (a : α) (n : Nat) : (pure a : Fresh ω α).value n = a := rfl

@[simp] theorem counter_pure (a : α) (n : Nat) : (pure a : Fresh ω α).counter n = n := rfl

@[simp] theorem emitted_pure (a : α) (n : Nat) : (pure a : Fresh ω α).emitted n = [] := rfl

variable (f : α → Fresh ω β)

@[simp] theorem value_bind (n : Nat) :
    (m >>= f).value n = (f (m.value n)).value (m.counter n) := rfl

@[simp] theorem counter_bind (n : Nat) :
    (m >>= f).counter n = (f (m.value n)).counter (m.counter n) := rfl

@[simp] theorem emitted_bind (n : Nat) :
    (m >>= f).emitted n = m.emitted n ++ (f (m.value n)).emitted (m.counter n) := rfl

@[simp] theorem value_map (f : α → β) (m : Fresh ω α) (n : Nat) :
    (f <$> m).value n = f (m.value n) := rfl

@[simp] theorem counter_map (f : α → β) (m : Fresh ω α) (n : Nat) :
    (f <$> m).counter n = m.counter n := rfl

@[simp] theorem emitted_map (f : α → β) (m : Fresh ω α) (n : Nat) :
    (f <$> m).emitted n = m.emitted n := List.append_nil _

@[simp] theorem value_next : (next : Fresh ω Nat).value n = n := rfl

@[simp] theorem counter_next : (next : Fresh ω Nat).counter n = n + 1 := rfl

@[simp] theorem emitted_next : (next : Fresh ω Nat).emitted n = [] := rfl

@[simp] theorem counter_emit (item : ω) (n : Nat) : (emit item).counter n = n := rfl

@[simp] theorem emitted_emit (item : ω) (n : Nat) : (emit item).emitted n = [item] := rfl

@[simp] theorem value_collect (n : Nat) :
    (m.collect close).value n = close (m.emitted n) (m.value n) := rfl

@[simp] theorem counter_collect (n : Nat) :
    (m.collect close).counter n = m.counter n := rfl

@[simp] theorem emitted_collect (n : Nat) :
    (m.collect close).emitted n = [] := rfl

end Fresh

end Ail.Lib
