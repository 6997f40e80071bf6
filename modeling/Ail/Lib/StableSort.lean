import Mathlib.Data.List.Sort

/-!
# Stable sorting by a small key

A stable sort by a key with finitely many values puts the elements of
each key one after the other and leaves their order alone.
-/

namespace Ail.Lib

open List

universe u

variable {α : Type u} (key : α → Nat)

/-- The elements by key, the keys below the bound in increasing order. -/
def buckets (bound : Nat) (values : List α) : List α :=
  (List.range bound).flatMap fun k => values.filter (key · = k)

theorem orderedInsert_append {r : α → α → Prop} [DecidableRel r] {a : α} {front back : List α}
    (hfront : ∀ x ∈ front, ¬ r a x) (hback : ∀ x ∈ back, r a x) :
    (front ++ back).orderedInsert r a = front ++ a :: back := by
  induction front with
  | nil =>
    cases back with
    | nil => rfl
    | cons b back => simp [hback b mem_cons_self]
  | cons x front ih =>
    rw [cons_append, orderedInsert_cons, if_neg (hfront x mem_cons_self),
      ih fun x hmem => hfront x (.tail _ hmem), cons_append]

variable {bound : Nat}

/-- Where an element lands among the buckets of the others. -/
theorem buckets_cons {a : α} (ha : key a < bound) (values : List α) :
    ∃ front back, buckets key bound values = front ++ back ∧
      buckets key bound (a :: values) = front ++ a :: back ∧
      (∀ x ∈ front, key x < key a) ∧ ∀ x ∈ back, key a ≤ key x := by
  obtain ⟨rest, rfl⟩ := Nat.exists_eq_add_of_lt ha
  have hrange : List.range (key a + rest + 1) =
      List.range (key a) ++ key a :: (List.range rest).map (key a + 1 + ·) := by
    rw [Nat.add_assoc, range_add, range_succ_eq_map]
    simp [Nat.add_assoc, Nat.add_comm 1]
  have hlow : ∀ k ∈ List.range (key a),
      (a :: values).filter (key · = k) = values.filter (key · = k) := by
    intro k hk
    have hne : key a ≠ k := (mem_range.1 hk).ne'
    simp [hne]
  have hhigh : ∀ k ∈ (List.range rest).map (key a + 1 + ·),
      (a :: values).filter (key · = k) = values.filter (key · = k) := by
    intro k hk
    obtain ⟨j, -, rfl⟩ := mem_map.1 hk
    have hne : key a ≠ key a + 1 + j := by omega
    simp [hne]
  refine ⟨(List.range (key a)).flatMap fun k => values.filter (key · = k),
    values.filter (key · = key a) ++
      ((List.range rest).map (key a + 1 + ·)).flatMap fun k => values.filter (key · = k),
    ?_, ?_, fun x hmem => ?_, fun x hmem => ?_⟩
  · rw [buckets, hrange, flatMap_append, flatMap_cons]
  · rw [buckets, hrange, flatMap_append, flatMap_cons, flatMap_congr hlow,
      flatMap_congr hhigh, filter_cons_of_pos (by simp), cons_append]
  · obtain ⟨k, hk, hx⟩ := mem_flatMap.1 hmem
    have hkey : key x = k := by simpa using (mem_filter.1 hx).2
    exact hkey ▸ mem_range.1 hk
  · rcases mem_append.1 hmem with hx | hmem
    · have hkey : key x = key a := by simpa using (mem_filter.1 hx).2
      exact hkey.ge
    · obtain ⟨k, hk, hx⟩ := mem_flatMap.1 hmem
      obtain ⟨j, -, rfl⟩ := mem_map.1 hk
      have hkey : key x = key a + 1 + j := by simpa using (mem_filter.1 hx).2
      omega

/-- A stable sort lists one key after the other. -/
theorem insertionSort_eq_buckets {values : List α} (hbound : ∀ x ∈ values, key x < bound) :
    values.insertionSort (fun a b => key a ≤ key b) = buckets key bound values := by
  induction values with
  | nil => simp [buckets]
  | cons a values ih =>
    obtain ⟨front, back, hvalues, hcons, hfront, hback⟩ :=
      buckets_cons key (hbound a (.head _)) values
    rw [insertionSort_cons, ih fun x hmem => hbound x (mem_cons_of_mem _ hmem), hvalues, hcons]
    exact orderedInsert_append (fun x hmem => not_le.2 (hfront x hmem)) hback

end Ail.Lib
