import Mathlib.Data.List.Nodup
import Mathlib.Logic.Relation

/-!
# Lineages

Names recorded in the order they appear, each with the parent it was
given: a new name is none of the earlier ones, its parent is one of
them. Such a record cannot hold a cycle, because every link goes back
in the order of appearance.
-/

namespace Ail.Lib

open Relation List

universe u

variable {α : Type u}

inductive Lineage : List (α × Option α) → Prop
  | nil : Lineage []
  | concat {born : List (α × Option α)} {name : α} {parent : Option α} (older : Lineage born)
      (fresh : name ∉ born.map (·.1)) (known : ∀ p, parent = some p → p ∈ born.map (·.1)) :
      Lineage (born ++ [(name, parent)])

/-- The record says that `parent` is the parent of `child`. -/
def ParentOf (born : List (α × Option α)) (child parent : α) : Prop := (child, some parent) ∈ born

instance [DecidableEq α] (born : List (α × Option α)) (child parent : α) :
    Decidable (ParentOf born child parent) :=
  inferInstanceAs (Decidable (_ ∈ born))

/-- An ancestor stays one when the record grows. -/
theorem ancestor_mono {born born' : List (α × Option α)} (hsub : born ⊆ born') {name ancestor : α}
    (path : ReflTransGen (ParentOf born) name ancestor) :
    ReflTransGen (ParentOf born') name ancestor :=
  path.lift id fun _ _ link => hsub link

namespace Lineage

variable {born : List (α × Option α)}

theorem nodup (lineage : Lineage born) : (born.map (·.1)).Nodup := by
  induction lineage with
  | nil => exact nodup_nil
  | concat older fresh known ih =>
    rw [map_append]
    exact ih.append (nodup_singleton _) (by simpa using fresh)

theorem parent_mem (lineage : Lineage born) {child parent : α} (link : ParentOf born child parent) :
    parent ∈ born.map (·.1) := by
  induction lineage with
  | nil => cases link
  | concat older fresh known ih =>
    rw [map_append, mem_append]
    rcases mem_append.1 link with hold | hnew
    · exact .inl (ih hold)
    · exact .inl (known parent (congrArg Prod.snd (mem_singleton.1 hnew)).symm)

/-- Parents come first. -/
theorem idxOf_lt [DecidableEq α] (lineage : Lineage born) {child parent : α}
    (link : ParentOf born child parent) :
    (born.map (·.1)).idxOf parent < (born.map (·.1)).idxOf child := by
  induction lineage with
  | nil => cases link
  | @concat earlier name given older fresh known ih =>
    rw [map_append]
    rcases mem_append.1 link with hold | hnew
    · have hchild : child ∈ earlier.map (·.1) := mem_map.2 ⟨_, hold, rfl⟩
      rw [idxOf_append_of_mem (older.parent_mem hold), idxOf_append_of_mem hchild]
      exact ih hold
    · cases mem_singleton.1 hnew
      rw [idxOf_append_of_mem (known parent rfl), idxOf_append_of_notMem fresh]
      exact Nat.lt_add_right _ (idxOf_lt_length_of_mem (known parent rfl))

/-- No name descends from itself. -/
theorem acyclic (lineage : Lineage born) (name : α) : ¬ TransGen (ParentOf born) name name := by
  classical
  have descends : ∀ {first last}, TransGen (ParentOf born) first last →
      (born.map (·.1)).idxOf last < (born.map (·.1)).idxOf first := by
    intro first last path
    induction path with
    | single link => exact lineage.idxOf_lt link
    | tail _ link ih => exact Nat.lt_trans (lineage.idxOf_lt link) ih
  exact fun cycle => Nat.lt_irrefl _ (descends cycle)

end Lineage

end Ail.Lib
