import Mathlib.Data.Finset.Card

/-!
# Saturation by a worklist

Starting from a queue of elements already seen, take the first element
of the queue, append its unseen successors to the queue and to what has
been seen, and go on until the queue is empty.

The loop runs on fuel. `saturate_closed` says how much is enough: one
turn for each element of the queue and one for each element of a finite
universe not yet seen. The result is then closed under successors.
-/

namespace Ail.Lib

open List

universe u

variable {α : Type u} [DecidableEq α]

/-- The elements not yet seen, each at its first occurrence. -/
def unseen : List α → List α → List α
  | _, [] => []
  | seen, a :: as => if a ∈ seen then unseen seen as else a :: unseen (seen ++ [a]) as

/-- What has been seen when the queue runs empty. -/
def saturate (next : α → List α) : Nat → List α → List α → List α
  | 0, _, seen => seen
  | _ + 1, [], seen => seen
  | fuel + 1, a :: queue, seen =>
    saturate next fuel (queue ++ unseen seen (next a)) (seen ++ unseen seen (next a))

theorem mem_unseen {seen as : List α} {a : α} : a ∈ unseen seen as ↔ a ∈ as ∧ a ∉ seen := by
  induction as generalizing seen with
  | nil => simp [unseen]
  | cons first as ih =>
    unfold unseen
    split
    · rename_i hseen
      rw [ih, mem_cons]
      constructor
      · exact fun h => ⟨.inr h.1, h.2⟩
      · rintro ⟨rfl | hmem, hnew⟩
        · exact absurd hseen hnew
        · exact ⟨hmem, hnew⟩
    · rename_i hseen
      rw [mem_cons, ih, mem_append]
      by_cases heq : a = first
      · simp [heq, hseen]
      · simp [heq]

theorem nodup_unseen (seen as : List α) : (unseen seen as).Nodup := by
  induction as generalizing seen with
  | nil => exact nodup_nil
  | cons first as ih =>
    unfold unseen
    split
    · exact ih seen
    · refine nodup_cons.2 ⟨fun hmem => ?_, ih _⟩
      exact (mem_unseen.1 hmem).2 (mem_append_right _ (mem_singleton_self first))

variable {next : α → List α}

theorem subset_saturate (fuel : Nat) (queue seen : List α) :
    ∀ a ∈ seen, a ∈ saturate next fuel queue seen := by
  fun_induction saturate next fuel queue seen with
  | case1 => exact fun _ h => h
  | case2 => exact fun _ h => h
  | case3 fuel a queue seen ih => exact fun b hb => ih b (mem_append_left _ hb)

/-- What passes from an element to its successors holds of all that is
seen, if it holds of what is seen at first. -/
theorem forall_saturate {P : α → Prop} (hnext : ∀ a, P a → ∀ b ∈ next a, P b) (fuel : Nat)
    (queue seen : List α) (hqueue : ∀ a ∈ queue, P a) (hseen : ∀ a ∈ seen, P a) :
    ∀ a ∈ saturate next fuel queue seen, P a := by
  fun_induction saturate next fuel queue seen with
  | case1 => exact hseen
  | case2 => exact hseen
  | case3 fuel a queue seen ih =>
    rw [forall_mem_cons] at hqueue
    have hnew : ∀ b ∈ unseen seen (next a), P b := fun b hb =>
      hnext a hqueue.1 b (mem_unseen.1 hb).1
    exact ih (forall_mem_append.2 ⟨hqueue.2, hnew⟩) (forall_mem_append.2 ⟨hseen, hnew⟩)

theorem nodup_saturate (fuel : Nat) (queue seen : List α) (hseen : seen.Nodup) :
    (saturate next fuel queue seen).Nodup := by
  fun_induction saturate next fuel queue seen with
  | case1 => exact hseen
  | case2 => exact hseen
  | case3 fuel a queue seen ih =>
    exact ih (hseen.append (nodup_unseen seen _) fun b hold hnew => (mem_unseen.1 hnew).2 hold)

variable {univ : Finset α}

/-- Seeing one more element of the universe leaves fewer to see. -/
theorem card_sdiff_lt {seen seen' : List α} {a : α} (hmem : a ∈ univ) (hnew : a ∉ seen)
    (hseen : a ∈ seen') (hsub : seen ⊆ seen') :
    (univ \ seen'.toFinset).card < (univ \ seen.toFinset).card := by
  have hkept : univ \ seen'.toFinset ⊆ univ \ seen.toFinset :=
    Finset.sdiff_subset_sdiff le_rfl fun b => by simpa using @hsub b
  exact Finset.card_lt_card
    ((Finset.ssubset_iff_of_subset hkept).2 ⟨a, by simp [hmem, hnew], by simp [hseen]⟩)

/-- Marking new elements as seen leaves that many fewer to see. -/
theorem card_sdiff_unseen {seen as : List α} (has : ∀ a ∈ as, a ∈ univ) :
    (univ \ (seen ++ unseen seen as).toFinset).card + (unseen seen as).length =
      (univ \ seen.toFinset).card := by
  have hsub : (unseen seen as).toFinset ⊆ univ \ seen.toFinset := by
    intro a ha
    obtain ⟨hmem, hnew⟩ := mem_unseen.1 (mem_toFinset.1 ha)
    simp [has a hmem, hnew]
  have hcard : (unseen seen as).length = (unseen seen as).toFinset.card :=
    (toFinset_card_of_nodup (nodup_unseen seen as)).symm
  rw [toFinset_append, ← Finset.sup_eq_union, ← sdiff_sdiff_left, hcard]
  exact Finset.card_sdiff_add_card_eq_card hsub

/-- With enough fuel, what is found is closed under `next`. -/
theorem saturate_closed (hnext : ∀ a, ∀ b ∈ next a, b ∈ univ) (fuel : Nat) (queue seen : List α)
    (hfuel : queue.length + (univ \ seen.toFinset).card ≤ fuel)
    (hseen : ∀ a ∈ seen, a ∈ queue ∨ ∀ b ∈ next a, b ∈ seen) :
    ∀ a ∈ saturate next fuel queue seen, ∀ b ∈ next a, b ∈ saturate next fuel queue seen := by
  fun_induction saturate next fuel queue seen with
  | case1 queue seen =>
    obtain rfl : queue = [] := length_eq_zero_iff.1 (by omega)
    exact fun a ha => (hseen a ha).resolve_left (not_mem_nil)
  | case2 seen _ => exact fun a ha => (hseen a ha).resolve_left (not_mem_nil)
  | case3 fuel a queue seen ih =>
    refine ih ?_ fun b hb => ?_
    · have hcard := @card_sdiff_unseen α _ univ seen (next a) (hnext a)
      simp only [length_cons, length_append] at hfuel ⊢
      omega
    · rcases mem_append.1 hb with hold | hnew
      · rcases hseen b hold with hqueue | hclosed
        · rcases mem_cons.1 hqueue with rfl | hqueue
          · -- the element just taken: its successors are seen now
            refine .inr fun c hc => ?_
            by_cases hcseen : c ∈ seen
            · exact mem_append_left _ hcseen
            · exact mem_append_right _ (mem_unseen.2 ⟨hc, hcseen⟩)
          · exact .inl (mem_append_left _ hqueue)
        · exact .inr fun c hc => mem_append_left _ (hclosed c hc)
      · exact .inl (mem_append_right _ hnew)

/-- With fuel for the starts and for all there is, what is seen is what
can be reached. -/
theorem mem_saturate_iff {R : α → α → Prop} (hnext : ∀ a b, b ∈ next a ↔ R a b) {all : List α}
    (hall : ∀ a b, R a b → b ∈ all) {fuel : Nat} {starts : List α}
    (hfuel : starts.length + all.length ≤ fuel) {b : α} :
    b ∈ saturate next fuel starts starts ↔ ∃ a ∈ starts, Relation.ReflTransGen R a b := by
  constructor
  · have hstart : ∀ b ∈ starts, ∃ a ∈ starts, Relation.ReflTransGen R a b :=
      fun b hb => ⟨b, hb, .refl⟩
    refine forall_saturate (fun b hb c hc => ?_) fuel starts starts hstart hstart b
    obtain ⟨a, ha, hpath⟩ := hb
    exact ⟨a, ha, hpath.tail ((hnext b c).1 hc)⟩
  · have hcard : (all.toFinset \ starts.toFinset).card ≤ all.length :=
      (Finset.card_le_card Finset.sdiff_subset).trans (toFinset_card_le all)
    have hclosed := saturate_closed (fun a b hb => mem_toFinset.2 (hall a b ((hnext a b).1 hb)))
      fuel starts starts (by omega) fun _ h => .inl h
    rintro ⟨a, ha, hpath⟩
    induction hpath with
    | refl => exact subset_saturate _ _ _ a ha
    | tail _ hstep ih => exact hclosed _ ih _ ((hnext _ _).2 hstep)

end Ail.Lib
