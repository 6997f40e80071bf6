import Mathlib.Data.List.Forall2

/-!
# Postconditions of fallible computations

`Ensures P E m`: if `m` returns, its value satisfies `P`; if it fails,
its failure satisfies `E`. One rule for each way a computation is built,
so that a computation in `do` notation is taken apart step by step.
-/

namespace Ail.Lib

open List

universe u v w

variable {ε : Type u} {α : Type v} {β : Type v} {P : α → Prop} {E : ε → Prop} {as : List α}

/-- What holds of the value, or of the failure. -/
def Ensures (P : α → Prop) (E : ε → Prop) : Except ε α → Prop
  | .ok a => P a
  | .error failure => E failure

variable {m : Except ε α} {γ : Type w} {f : α → Except ε β}

/-- The rule of sequence. -/
theorem Ensures.bind {Q : β → Prop} (hm : Ensures P E m) (hf : ∀ a, P a → Ensures Q E (f a)) :
    Ensures Q E (m >>= f) := by
  cases m with
  | ok a => exact hf a hm
  | error failure => exact hm

variable {Q : α → Prop}

/-- The rule of consequence. -/
theorem Ensures.mono (hm : Ensures P E m) (himp : ∀ a, P a → Q a) : Ensures Q E m := by
  cases m with
  | ok a => exact himp a hm
  | error failure => exact hm

variable {E' : ε → Prop}

theorem Ensures.weaken (hm : Ensures P E m) (himp : ∀ failure, E failure → E' failure) :
    Ensures P E' m := by
  cases m with
  | ok a => exact hm
  | error failure => exact himp failure hm

theorem Ensures.and (hm : Ensures P E m) (hm' : Ensures Q E' m) :
    Ensures (fun a => P a ∧ Q a) (fun failure => E failure ∧ E' failure) m := by
  cases m with
  | ok a => exact ⟨hm, hm'⟩
  | error failure => exact ⟨hm, hm'⟩

theorem Ensures.of_eq_ok {a : α} (hm : Ensures P E m) (heq : m = .ok a) : P a := by
  rw [heq] at hm
  exact hm

theorem bind_eq_ok {b : β} : (m >>= f) = .ok b ↔ ∃ a, m = .ok a ∧ f a = .ok b := by
  cases m with
  | ok a => exact ⟨fun heq => ⟨a, rfl, heq⟩, fun ⟨_, hok, heq⟩ => Except.ok.inj hok ▸ heq⟩
  | error failure => exact ⟨fun heq => (nomatch heq), fun ⟨_, hok, _⟩ => nomatch hok⟩

theorem mapError_eq_ok {φ : Type w} {f : ε → φ} {a : α} : m.mapError f = .ok a ↔ m = .ok a := by
  cases m <;> simp [Except.mapError]

theorem exists_map_eq_ok_iff {f : α → β} : (∃ b, m.map f = .ok b) ↔ ∃ a, m = .ok a := by
  cases m <;> simp [Except.map]

variable {cs : List γ} {f : γ → Except ε α}

/-- A traversal returns a list exactly when it matches the given one
element by element. -/
theorem mapM_eq_ok_iff_forall₂ :
    cs.mapM f = .ok as ↔ List.Forall₂ (fun c a => f c = .ok a) cs as := by
  induction cs generalizing as with
  | nil => simp [pure, Except.pure]
  | cons c cs ih =>
    simp only [mapM_cons, bind_eq_ok, ih, forall₂_cons_left_iff]
    constructor
    · rintro ⟨a, hhead, as', htail, heq⟩
      exact ⟨a, as', hhead, htail, (Except.ok.inj heq).symm⟩
    · rintro ⟨a, as', hhead, htail, rfl⟩
      exact ⟨a, hhead, as', htail, rfl⟩

theorem exists_mem_of_forall₂ {κ δ : Type*} {R : κ → δ → Prop} {ks : List κ} {ds : List δ}
    (hrel : List.Forall₂ R ks ds) {k : κ} (hmem : k ∈ ks) : ∃ d ∈ ds, R k d := by
  induction hrel with
  | nil => cases hmem
  | @cons head d ks ds hhead _ ih =>
    rcases mem_cons.1 hmem with rfl | hmem
    · exact ⟨d, .head _, hhead⟩
    · obtain ⟨d', hmem', hrel⟩ := ih hmem
      exact ⟨d', mem_cons_of_mem d hmem', hrel⟩

theorem exists_mem_of_mapM_eq_ok (hmap : cs.mapM f = .ok as) {a : α} (hmem : a ∈ as) :
    ∃ c ∈ cs, f c = .ok a :=
  exists_mem_of_forall₂ (mapM_eq_ok_iff_forall₂.1 hmap).flip hmem

theorem exists_mem_of_mem_of_mapM_eq_ok (hmap : cs.mapM f = .ok as) {c : γ} (hmem : c ∈ cs) :
    ∃ a ∈ as, f c = .ok a :=
  exists_mem_of_forall₂ (mapM_eq_ok_iff_forall₂.1 hmap) hmem

/-- What each step keeps of its argument the traversal keeps of the list. -/
theorem map_eq_of_mapM_eq_ok {δ : Type w} {before : γ → δ} {after : α → δ}
    (hmap : cs.mapM f = .ok as) (hkeeps : ∀ c ∈ cs, ∀ a, f c = .ok a → after a = before c) :
    as.map after = cs.map before := by
  have hrel := mapM_eq_ok_iff_forall₂.1 hmap
  clear hmap
  induction hrel with
  | nil => rfl
  | @cons c a cs as hhead _ ih =>
    rw [map_cons, map_cons, hkeeps c mem_cons_self a hhead,
      ih fun c hmem => hkeeps c (.tail _ hmem)]

theorem exists_mapM_eq_ok_iff : (∃ as, cs.mapM f = .ok as) ↔ ∀ c ∈ cs, ∃ a, f c = .ok a := by
  constructor
  · rintro ⟨as, hmap⟩ c hmem
    obtain ⟨a, -, heq⟩ := exists_mem_of_mem_of_mapM_eq_ok hmap hmem
    exact ⟨a, heq⟩
  · intro hall
    induction cs with
    | nil => exact ⟨[], rfl⟩
    | cons c cs ih =>
      obtain ⟨a, hhead⟩ := hall c (.head _)
      obtain ⟨as, htail⟩ := ih fun c hmem => hall c (.tail _ hmem)
      refine ⟨a :: as, ?_⟩
      rw [mapM_cons, hhead, htail]
      rfl

/-- A fold whose steps fail or not whatever has been accumulated returns
exactly if no step fails. -/
theorem exists_foldlM_eq_ok_iff {f : α → γ → Except ε α} {P : γ → Prop}
    (hstep : ∀ c ∈ cs, ∀ a, (∃ b, f a c = .ok b) ↔ P c) (a : α) :
    (∃ b, cs.foldlM f a = .ok b) ↔ ∀ c ∈ cs, P c := by
  induction cs generalizing a with
  | nil => simp [pure, Except.pure]
  | cons c cs ih =>
    have hrest := ih fun c hmem => hstep c (.tail _ hmem)
    rw [forall_mem_cons, ← hstep c mem_cons_self a, foldlM_cons]
    cases f a c with
    | ok next => simpa [bind, Except.bind] using hrest next
    | error failure => simp [bind, Except.bind]

/-- A traversal returns the image of a function exactly when each step
returns its value. -/
theorem mapM_eq_ok_map_iff {g : γ → α} :
    cs.mapM f = .ok (cs.map g) ↔ ∀ c ∈ cs, f c = .ok (g c) := by
  induction cs with
  | nil => simp [pure, Except.pure]
  | cons c cs ih =>
    rw [mapM_cons, forall_mem_cons, ← ih]
    cases f c with
    | error failure => simp [bind, Except.bind]
    | ok a => cases cs.mapM f <;> simp [bind, Except.bind, pure, Except.pure]

end Ail.Lib
