import Mathlib.Data.List.Destutter
import Mathlib.Data.List.Sort

/-!
# Lists in canonical order

Output that must not depend on how it came about is sorted and freed of
repetitions. An ordered set is the sorted list of its elements; a list
that is sorted first needs only its adjacent repetitions removed. Either
way no element is lost and none is added.
-/

namespace Ail.Lib

open List

variable {α : Type} {elements : List α} {a : α}

/-- The elements of a list in order, each once. -/
def orderedSet [DecidableEq α] [Ord α] (elements : List α) : List α :=
  elements.dedup.insertionSort fun a b => (compare a b).isLE

@[simp] theorem mem_orderedSet [DecidableEq α] [Ord α] :
    a ∈ orderedSet elements ↔ a ∈ elements := by
  rw [orderedSet, mem_insertionSort, mem_dedup]

section Order

variable [DecidableEq α] [Ord α] [Std.TransOrd α]

instance total_isLE : Std.Total fun a b : α => (compare a b).isLE = true where
  total a b := by
    rw [(Std.OrientedCmp.eq_swap : compare b a = (compare a b).swap)]
    cases compare a b <;> simp

instance isTrans_isLE : IsTrans α fun a b => (compare a b).isLE = true where
  trans _ _ _ := Std.TransCmp.isLE_trans

/-- An ordered set depends on nothing but its elements. -/
theorem orderedSet_eq_iff [Std.LawfulEqOrd α] {first second : List α} :
    orderedSet first = orderedSet second ↔ ∀ a, a ∈ first ↔ a ∈ second := by
  refine ⟨fun heq a => by rw [← mem_orderedSet, heq, mem_orderedSet], fun hmem => ?_⟩
  have hperm : first.dedup.Perm second.dedup :=
    (perm_ext_iff_of_nodup (nodup_dedup _) (nodup_dedup _)).2 fun a => by
      rw [mem_dedup, mem_dedup, hmem]
  refine @List.Perm.eq_of_pairwise _ (fun a b => (compare a b).isLE = true) _ _
    (fun a b _ _ hle hge => ?_) (pairwise_insertionSort _ _) (pairwise_insertionSort _ _)
    ((perm_insertionSort _ _).trans (hperm.trans (perm_insertionSort _ _).symm))
  exact Std.LawfulEqCmp.eq_of_compare (Std.OrientedCmp.isLE_antisymm hle hge)

end Order

/-- The list without the elements that repeat the one before. -/
def dedupAdjacent [DecidableEq α] (elements : List α) : List α := elements.destutter (· ≠ ·)

theorem mem_destutter'_ne [DecidableEq α] {b : α} (hmem : a ∈ elements) :
    a ∈ elements.destutter' (· ≠ ·) b := by
  induction elements generalizing b with
  | nil => cases hmem
  | cons c rest ih =>
    by_cases hne : b ≠ c
    · rw [destutter'_cons_pos _ hne]
      obtain rfl | hmem := mem_cons.1 hmem
      · exact .tail _ (mem_destutter' _ _ _)
      · exact .tail _ (ih hmem)
    · rw [destutter'_cons_neg _ hne]
      obtain rfl | hmem := mem_cons.1 hmem
      · rw [not_not.1 hne]
        exact mem_destutter' _ _ _
      · exact ih hmem

@[simp] theorem mem_dedupAdjacent [DecidableEq α] : a ∈ dedupAdjacent elements ↔ a ∈ elements := by
  refine ⟨fun hmem => (destutter_sublist _ _).subset hmem, fun hmem => ?_⟩
  cases elements with
  | nil => cases hmem
  | cons b rest =>
    obtain rfl | hmem := mem_cons.1 hmem
    · exact mem_destutter' _ _ _
    · exact mem_destutter'_ne hmem

end Ail.Lib
