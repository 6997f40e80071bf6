import Mathlib.Data.Option.Basic
import Mathlib.Data.List.Forall2

/-!
# Relating two runs of stateful computations

`Agree S E R` relates the outcomes of two computations that can fail:
both return or both fail, with related values or failures, in related
states. The rules follow the ways a computation is built, and each is
stated at the two states the runs start from, so that a side condition
may speak of the run itself: the continuation of a `bind` is compared
only where the first half gets to it.
-/

namespace Ail.Lib

open List

universe u

variable {ε σ α β γ γ' : Type u} {ε' σ' α' β' : Type u} {a : α} {m' : EStateM ε' σ' α'}
  {cs : List α} {cs' : List α'}

/-- Both return or both fail, with related results in related states. -/
def Agree (S : σ → σ' → Prop) (E : ε → ε' → Prop) (R : α → α' → Prop) :
    EStateM.Result ε σ α → EStateM.Result ε' σ' α' → Prop
  | .ok a s, .ok a' s' => R a a' ∧ S s s'
  | .error e s, .error e' s' => E e e' ∧ S s s'
  | _, _ => False

variable {S : σ → σ' → Prop} {E : ε → ε' → Prop} {R : α → α' → Prop} {Q : β → β' → Prop}
variable {s s₁ : σ} {s' : σ'} {a' : α'}

theorem agree_pure (hvalue : R a a') (hstate : S s s') :
    Agree S E R ((pure a : EStateM ε σ α) s) ((pure a' : EStateM ε' σ' α') s') :=
  ⟨hvalue, hstate⟩

theorem agree_throw {e : ε} {e' : ε'} (hfailure : E e e') (hstate : S s s') :
    Agree S E R ((throw e : EStateM ε σ α) s) ((throw e' : EStateM ε' σ' α') s') :=
  ⟨hfailure, hstate⟩

variable {f : α → EStateM ε σ β} {m : EStateM ε σ α}

/-- A computation that returns continues in the state it leaves. -/
theorem bind_of_ok (hm : m s = .ok a s₁) : (m >>= f) s = f a s₁ := by
  change EStateM.bind m f s = f a s₁
  rw [EStateM.bind, hm]

theorem bind_of_error {e : ε} (hm : m s = .error e s₁) : (m >>= f) s = .error e s₁ := by
  change EStateM.bind m f s = .error e s₁
  rw [EStateM.bind, hm]

/-- Runs that agree go on to runs that agree. -/
theorem Agree.bind {f' : α' → EStateM ε' σ' β'} (hm : Agree S E R (m s) (m' s'))
    (hf : ∀ a a' s₁ s₁', m s = .ok a s₁ → R a a' → S s₁ s₁' → Agree S E Q (f a s₁) (f' a' s₁')) :
    Agree S E Q ((m >>= f) s) ((m' >>= f') s') := by
  cases hrun : m s with
  | ok a s₁ =>
    cases hrun' : m' s' with
    | ok a' s₁' =>
      rw [hrun, hrun'] at hm
      rw [bind_of_ok hrun, bind_of_ok hrun']
      exact hf a a' s₁ s₁' hrun hm.1 hm.2
    | error e' s₁' =>
      rw [hrun, hrun'] at hm
      exact hm.elim
  | error e s₁ =>
    cases hrun' : m' s' with
    | ok a' s₁' =>
      rw [hrun, hrun'] at hm
      exact hm.elim
    | error e' s₁' =>
      rw [hrun, hrun'] at hm
      rw [bind_of_error hrun, bind_of_error hrun']
      exact hm

/-! ## Failures as values -/

/-- Run to the end and say how it ended. -/
def attempt (m : EStateM ε σ α) : EStateM ε σ (Except ε α) := fun s =>
  match m s with
  | .ok a s₁ => .ok (.ok a) s₁
  | .error e s₁ => .ok (.error e) s₁

/-- How two attempts end. -/
inductive EndRel (E : ε → ε' → Prop) (R : α → α' → Prop) : Except ε α → Except ε' α' → Prop
  | ok {a : α} {a' : α'} : R a a' → EndRel E R (.ok a) (.ok a')
  | error {e : ε} {e' : ε'} : E e e' → EndRel E R (.error e) (.error e')

/-- A caught stop is related like the stop itself. -/
theorem Agree.attempt (hm : Agree S E R (m s) (m' s')) :
    Agree S E (EndRel E R) (attempt m s) (attempt m' s') := by
  unfold Ail.Lib.attempt
  cases hrun : m s <;> cases hrun' : m' s' <;> rw [hrun, hrun'] at hm
  · exact ⟨.ok hm.1, hm.2⟩
  · exact hm.elim
  · exact hm.elim
  · exact ⟨.error hm.1, hm.2⟩

/-! ## Loops -/

/-- Repeat `step` until it gives a value, at most `n` times. -/
def rounds (bound : ε) (step : EStateM ε σ (Option α)) : Nat → EStateM ε σ α
  | 0 => throw bound
  | n + 1 => do
    match ← step with
    | some a => pure a
    | none => rounds bound step n

/-- Two loops agree if their rounds do. -/
theorem Agree.rounds {bound : ε} {bound' : ε'} {step : EStateM ε σ (Option α)}
    {step' : EStateM ε' σ' (Option α')} (hbound : E bound bound')
    (hstep : ∀ s s', S s s' → Agree S E (Option.Rel R) (step s) (step' s')) (n : Nat) :
    ∀ {s : σ} {s' : σ'}, S s s' →
      Agree S E R (rounds bound step n s) (rounds bound' step' n s') := by
  induction n with
  | zero => exact fun hs => agree_throw hbound hs
  | succ n ih =>
    intro s s' hs
    refine (hstep s s' hs).bind fun a a' s₁ s₁' _ hend hs₁ => ?_
    cases hend with
    | some hvalue => exact agree_pure hvalue hs₁
    | none => exact ih hs₁

/-! ## Lists -/

/-- A fold agrees if each of its steps does. -/
theorem Agree.foldlM {T : γ → γ' → Prop} {f : α → γ → EStateM ε σ α}
    {f' : α' → γ' → EStateM ε' σ' α'}
    (hf : ∀ a a' c c' s s', R a a' → T c c' → S s s' → Agree S E R (f a c s) (f' a' c' s'))
    {cs : List γ} {cs' : List γ'} (hcs : List.Forall₂ T cs cs') :
    ∀ {a : α} {a' : α'} {s : σ} {s' : σ'}, R a a' → S s s' →
      Agree S E R (cs.foldlM f a s) (cs'.foldlM f' a' s') := by
  induction hcs with
  | nil => exact fun ha hs => agree_pure ha hs
  | cons hc _ ih =>
    intro a a' s s' ha hs
    exact (hf _ _ _ _ _ _ ha hc hs).bind fun _ _ _ _ _ ha₁ hs₁ => ih ha₁ hs₁

theorem rel_getElem? (hcs : List.Forall₂ R cs cs') (index : Nat) :
    Option.Rel R cs[index]? cs'[index]? := by
  induction hcs generalizing index with
  | nil => exact .none
  | cons hhead _ ih =>
    cases index with
    | zero => exact .some hhead
    | succ index => exact ih index

theorem forall₂_set (hcs : List.Forall₂ R cs cs') (ha : R a a') (index : Nat) :
    List.Forall₂ R (cs.set index a) (cs'.set index a') := by
  induction hcs generalizing index with
  | nil => exact .nil
  | cons hhead htail ih =>
    cases index with
    | zero => exact .cons ha htail
    | succ index => exact .cons hhead (ih index)

theorem map_eq_map_of_forall₂ (hcs : List.Forall₂ R cs cs') {f : α → γ} {f' : α' → γ}
    (hf : ∀ a a', R a a' → f a = f' a') : cs.map f = cs'.map f' := by
  induction hcs with
  | nil => rfl
  | cons hhead _ ih => rw [map_cons, map_cons, hf _ _ hhead, ih]

/-- Two traversals agree if their elements do. -/
theorem Agree.mapM {run : γ → EStateM ε σ α} {run' : γ' → EStateM ε' σ' α'} {cs : List γ}
    {cs' : List γ'} (hrun : List.Forall₂ (fun c c' => ∀ s s', S s s' →
      Agree S E R (run c s) (run' c' s')) cs cs') :
    ∀ {s : σ} {s' : σ'}, S s s' →
      Agree S E (List.Forall₂ R) (cs.mapM run s) (cs'.mapM run' s') := by
  induction hrun with
  | nil => exact fun hs => agree_pure .nil hs
  | cons hhead _ ih =>
    intro s s' hs
    simp only [mapM_cons]
    refine (hhead s s' hs).bind fun a a' s₁ s₁' _ ha hs₁ => ?_
    refine (ih hs₁).bind fun as as' s₂ s₂' _ has hs₂ => ?_
    exact agree_pure (.cons ha has) hs₂

end Ail.Lib
