import Mathlib.Data.List.Induction

/-!
# Finite runs of a deterministic machine

A machine answers one input at a time: `step s i` is the next state and
the answer. A run keeps the log of the exchanges it made, so that an
invariant may speak about the whole history and not only about the
state it led to.

`run_induction` is the one induction over runs: what holds initially of
the empty log and is preserved by one exchange holds of every run. The
guarded form asks only for the steps that meet a condition.
-/

namespace Ail.Lib

open List

universe u v w

variable {State : Type u} {Input : Type v} {Output : Type w}
variable (step : State → Input → State × Output)

/-- One exchange: advance the state, append input and answer to the log. -/
def exchange (point : State × List (Input × Output)) (input : Input) :
    State × List (Input × Output) :=
  ((step point.1 input).1, point.2 ++ [(input, (step point.1 input).2)])

/-- The state after a list of inputs, with the log of the exchanges. -/
def run (initial : State) (inputs : List Input) : State × List (Input × Output) :=
  inputs.foldl (exchange step) (initial, [])

@[simp] theorem run_concat (initial : State) (inputs : List Input) (input : Input) :
    run step initial (inputs ++ [input]) = exchange step (run step initial inputs) input := by
  simp [run]

/-- The steps of a run all meet a condition on the state, the log so
far and the input they answer. -/
def Guarded (guard : State → List (Input × Output) → Input → Prop) (initial : State)
    (inputs : List Input) : Prop :=
  ∀ earlier input later, inputs = earlier ++ input :: later →
    guard (run step initial earlier).1 (run step initial earlier).2 input

variable {step}

variable {guard : State → List (Input × Output) → Input → Prop} {initial : State}

theorem Guarded.left {earlier later : List Input}
    (guarded : Guarded step guard initial (earlier ++ later)) :
    Guarded step guard initial earlier := by
  intro before input after split
  exact guarded before input (after ++ later) (by simp [split])

variable {inputs : List Input} {input : Input}

theorem Guarded.init (guarded : Guarded step guard initial (inputs ++ [input])) :
    Guarded step guard initial inputs :=
  guarded.left

theorem Guarded.last (guarded : Guarded step guard initial (inputs ++ [input])) :
    guard (run step initial inputs).1 (run step initial inputs).2 input :=
  guarded inputs input [] rfl

theorem Guarded.nil : Guarded step guard initial [] := by
  intro earlier input later split
  simp at split

theorem Guarded.concat (guarded : Guarded step guard initial inputs)
    (holds : guard (run step initial inputs).1 (run step initial inputs).2 input) :
    Guarded step guard initial (inputs ++ [input]) := by
  intro earlier i later split
  rcases eq_nil_or_concat later with rfl | ⟨later, last, rfl⟩
  · obtain ⟨rfl, heq⟩ := append_inj' split rfl
    exact singleton_inj.1 heq ▸ holds
  · have split' : inputs = earlier ++ i :: later ∧ [input] = [last] := by
      refine append_inj' ?_ rfl
      simpa using split
    exact guarded earlier i later split'.1

variable {invariant : State → List (Input × Output) → Prop}

/-- Induction over the runs whose steps all meet a condition. -/
theorem run_induction_guarded (base : invariant initial [])
    (preserves : ∀ state log input, invariant state log → guard state log input →
      invariant (step state input).1 (log ++ [(input, (step state input).2)]))
    (inputs : List Input) (guarded : Guarded step guard initial inputs) :
    invariant (run step initial inputs).1 (run step initial inputs).2 := by
  induction inputs using List.reverseRecOn with
  | nil => exact base
  | append_singleton inputs input ih =>
    rw [run_concat]
    exact preserves _ _ input (ih guarded.init) guarded.last

/-- Induction over runs: an invariant of state and log that holds of the
empty run and survives every exchange holds of every run. -/
theorem run_induction (base : invariant initial [])
    (preserves : ∀ state log input, invariant state log →
      invariant (step state input).1 (log ++ [(input, (step state input).2)]))
    (inputs : List Input) : invariant (run step initial inputs).1 (run step initial inputs).2 := by
  induction inputs using List.reverseRecOn with
  | nil => exact base
  | append_singleton inputs input ih =>
    rw [run_concat]
    exact preserves _ _ input ih

/-! ## Runs that change places -/

section Commute

variable {σ ι : Type*} {step : σ → ι → Option σ} {first second : List ι}

theorem foldlM_cons_comm {a : ι}
    (hcomm : ∀ b ∈ second, ∀ s, (step s a).bind (step · b) = (step s b).bind (step · a)) (s : σ) :
    (a :: second).foldlM step s = (second ++ [a]).foldlM step s := by
  induction second generalizing s with
  | nil => rfl
  | cons b second ih =>
    obtain ⟨hb, hsecond⟩ := forall_mem_cons.1 hcomm
    calc (a :: b :: second).foldlM step s
        = ((step s a).bind (step · b)).bind (second.foldlM step) := (Option.bind_assoc ..).symm
      _ = (step s b).bind ((a :: second).foldlM step) := by rw [hb]; exact Option.bind_assoc ..
      _ = (b :: second ++ [a]).foldlM step s := by rw [funext (ih hsecond)]; rfl

/-- Two runs of a partial step change places if each step of the one
commutes with each of the other. -/
theorem foldlM_append_comm (hcomm : ∀ a ∈ first, ∀ b ∈ second, ∀ s,
      (step s a).bind (step · b) = (step s b).bind (step · a)) (s : σ) :
    (first ++ second).foldlM step s = (second ++ first).foldlM step s := by
  induction first generalizing s with
  | nil => rw [nil_append, append_nil]
  | cons a first ih =>
    obtain ⟨ha, hfirst⟩ := forall_mem_cons.1 hcomm
    calc (a :: first ++ second).foldlM step s
        = (step s a).bind ((second ++ first).foldlM step) := by rw [← funext (ih hfirst)]; rfl
      _ = ((a :: second) ++ first).foldlM step s := rfl
      _ = (second ++ a :: first).foldlM step s := by
        rw [foldlM_append, foldlM_cons_comm ha, ← foldlM_append, append_assoc]
        rfl

/-- A run does not depend on the order of steps that commute. -/
theorem foldlM_perm (hperm : first.Perm second)
    (hcomm : first.Pairwise fun a b => ∀ s, (step s a).bind (step · b) = (step s b).bind (step · a))
    (s : σ) : first.foldlM step s = second.foldlM step s := by
  induction hperm generalizing s with
  | nil => rfl
  | cons a _ ih =>
    rw [foldlM_cons, foldlM_cons, funext (ih hcomm.of_cons)]
  | swap b a l =>
    have hswap := (pairwise_cons.1 hcomm).1 b (mem_cons_self ..) s
    calc (a :: b :: l).foldlM step s
        = ((step s a).bind (step · b)).bind (l.foldlM step) := (Option.bind_assoc ..).symm
      _ = (b :: a :: l).foldlM step s := by rw [hswap]; exact Option.bind_assoc ..
  | trans hfirst _ ih ih' =>
    rw [ih hcomm, ih' ((hfirst.pairwise_iff fun h s => (h s).symm).1 hcomm)]

end Commute

end Ail.Lib
