import Mathlib.Data.List.Induction
import Mathlib.Order.Lattice

/-!
# Picking the best element of a list

A loop keeps the best element seen so far and lets `replaces` decide
whether the next one takes its place. Whether ties go to the first or to
the last of the best elements is in `replaces`, so it covers both.
-/

namespace Ail.Lib

open List

universe u v

variable {α : Type u} (replaces : α → α → Bool)

def pickStep (best : Option α) (next : α) : Option α :=
  match best with
  | none => some next
  | some kept => if replaces next kept then some next else some kept

def pick (candidates : List α) : Option α := candidates.foldl (pickStep replaces) none

variable {replaces}

@[simp] theorem pick_nil : pick replaces [] = none := rfl

theorem pick_concat (candidates : List α) (last : α) :
    pick replaces (candidates ++ [last]) = pickStep replaces (pick replaces candidates) last := by
  simp [pick]

@[simp] theorem pick_eq_none_iff {candidates : List α} :
    pick replaces candidates = none ↔ candidates = [] := by
  cases candidates using List.reverseRecOn with
  | nil => simp
  | append_singleton earlier last =>
    rw [pick_concat]
    cases pick replaces earlier with
    | none => simp [pickStep]
    | some kept => simp only [pickStep]; split <;> simp

/-- The last candidate was taken, or an earlier one was kept. -/
theorem pick_concat_cases {earlier : List α} {last best : α}
    (hpick : pick replaces (earlier ++ [last]) = some best) :
    (best = last ∧ earlier = []) ∨
    (best = last ∧ ∃ kept, pick replaces earlier = some kept ∧ replaces last kept) ∨
    (pick replaces earlier = some best ∧ ¬replaces last best) := by
  rw [pick_concat] at hpick
  cases hkept : pick replaces earlier with
  | none =>
    rw [hkept] at hpick
    exact .inl ⟨(Option.some.inj hpick).symm, pick_eq_none_iff.1 hkept⟩
  | some kept =>
    rw [hkept, pickStep] at hpick
    split at hpick
    · exact .inr (.inl ⟨(Option.some.inj hpick).symm, kept, rfl, ‹_›⟩)
    · cases hpick
      exact .inr (.inr ⟨rfl, ‹_›⟩)

/-- The pick is one of the candidates. -/
theorem mem_of_pick {candidates : List α} {best : α}
    (hpick : pick replaces candidates = some best) :
    best ∈ candidates := by
  induction candidates using List.reverseRecOn generalizing best with
  | nil => cases hpick
  | append_singleton earlier last ih =>
    obtain ⟨rfl, -⟩ | ⟨rfl, -⟩ | ⟨hkept, -⟩ := pick_concat_cases hpick
    · exact mem_append_right _ (.head _)
    · exact mem_append_right _ (.head _)
    · exact mem_append_left _ (ih hkept)

/-- If `replaces` follows a preorder, nothing is above what it picks. -/
theorem pick_max {below : α → α → Prop} (hrefl : ∀ a, below a a)
    (htrans : ∀ a b c, below a b → below b c → below a c)
    (hyes : ∀ next kept, replaces next kept → below kept next)
    (hno : ∀ next kept, ¬replaces next kept → below next kept)
    {candidates : List α} {best : α} (hpick : pick replaces candidates = some best) :
    ∀ candidate ∈ candidates, below candidate best := by
  induction candidates using List.reverseRecOn generalizing best with
  | nil => exact by simp
  | append_singleton earlier last ih =>
    intro candidate hmem
    rw [mem_append, mem_singleton] at hmem
    obtain ⟨rfl, rfl⟩ | ⟨rfl, kept, hkept, hreplaces⟩ | ⟨hkept, hkeeps⟩ := pick_concat_cases hpick
    · obtain rfl := hmem.resolve_left not_mem_nil
      exact hrefl candidate
    · rcases hmem with hearlier | rfl
      · exact htrans _ _ _ (ih hkept candidate hearlier) (hyes _ _ hreplaces)
      · exact hrefl candidate
    · rcases hmem with hearlier | rfl
      · exact ih hkept candidate hearlier
      · exact hno _ _ hkeeps

/-- A strict comparison of keys picks the first of the candidates whose
key is greatest. -/
theorem pick_first {κ : Type v} [LinearOrder κ] {key : α → κ} {candidates : List α} {best : α}
    (hpick : pick (fun next kept => decide (key kept < key next)) candidates = some best) :
    candidates.find? (fun candidate => decide (key candidate = key best)) = some best := by
  induction candidates using List.reverseRecOn generalizing best with
  | nil => cases hpick
  | append_singleton earlier last ih =>
    rw [find?_append]
    obtain ⟨rfl, rfl⟩ | ⟨rfl, kept, hkept, hreplaces⟩ | ⟨hkept, -⟩ := pick_concat_cases hpick
    · simp
    · have hbelow : ∀ candidate ∈ earlier, key candidate ≤ key kept :=
        @pick_max α _ (fun a b => key a ≤ key b) (fun _ => le_refl _) (fun _ _ _ => le_trans)
          (fun _ _ h => le_of_lt (of_decide_eq_true h))
            (fun _ _ h => le_of_not_gt (by simpa using h))
          _ _ hkept
      have hnone : earlier.find? (fun candidate => decide (key candidate = key best)) = none := by
        refine find?_eq_none.2 fun candidate hmem => ?_
        have hlt := lt_of_le_of_lt (hbelow candidate hmem) (of_decide_eq_true hreplaces)
        simpa using ne_of_lt hlt
      simp [hnone]
    · rw [ih hkept]
      rfl

end Ail.Lib
