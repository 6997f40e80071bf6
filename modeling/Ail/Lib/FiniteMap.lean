import Mathlib.Data.List.AList

/-!
# Finite maps, entry by entry

A sweep removes a list of keys from a map one by one. What is left at a
key depends only on whether the key was listed, never on the order of
the list. For a list of insertions the order matters: at each key the
last one is found, or the first one if an entry that is there is kept.
-/

namespace Ail.Lib

open List

universe u v

variable {κ : Type u} {β : κ → Type v} [DecidableEq κ]

def eraseAll (keys : List κ) (map : AList β) : AList β :=
  keys.foldl (fun rest key => rest.erase key) map

theorem lookup_eraseAll_of_notMem {keys : List κ} {key : κ} (hmem : key ∉ keys) (map : AList β) :
    (eraseAll keys map).lookup key = map.lookup key := by
  induction keys generalizing map with
  | nil => rfl
  | cons first rest ih =>
    obtain ⟨hne, hrest⟩ := not_or.1 (mt mem_cons.2 hmem)
    exact (ih hrest (map.erase first)).trans (AList.lookup_erase_ne hne)

theorem lookup_eraseAll_of_mem {keys : List κ} {key : κ} (hmem : key ∈ keys) (map : AList β) :
    (eraseAll keys map).lookup key = none := by
  induction keys generalizing map with
  | nil => cases hmem
  | cons first rest ih =>
    by_cases hrest : key ∈ rest
    · exact ih hrest (map.erase first)
    · obtain rfl : key = first := (mem_cons.1 hmem).resolve_right hrest
      exact (lookup_eraseAll_of_notMem hrest (map.erase key)).trans (AList.lookup_erase key map)

theorem lookup_eraseAll (keys : List κ) (key : κ) (map : AList β) :
    (eraseAll keys map).lookup key = if key ∈ keys then none else map.lookup key := by
  split
  · exact lookup_eraseAll_of_mem ‹_› map
  · exact lookup_eraseAll_of_notMem ‹_› map

def insertAll {ν : Type v} (entries : List (κ × ν)) (map : AList fun _ : κ => ν) :
    AList fun _ : κ => ν :=
  entries.foldl (fun earlier entry => earlier.insert entry.1 entry.2) map

variable {ν : Type v}

/-- The last entry of a key wins. -/
theorem lookup_insertAll (entries : List (κ × ν)) (map : AList fun _ : κ => ν) (key : κ) :
    (insertAll entries map).lookup key =
      ((entries.reverse.find? (·.1 = key)).map (·.2)).or (map.lookup key) := by
  induction entries generalizing map with
  | nil => rfl
  | cons entry rest ih =>
    refine (ih (map.insert entry.1 entry.2)).trans ?_
    rw [reverse_cons, find?_append]
    cases rest.reverse.find? (·.1 = key) with
    | some found => rfl
    | none =>
      by_cases hkey : entry.1 = key
      · subst hkey
        simp
      · rw [AList.lookup_insert_ne (Ne.symm hkey)]
        simp [hkey]

/-- `entry(key).or_insert(value)`. -/
def orInsert {ν : Type v} (map : AList fun _ : κ => ν) (key : κ) (value : ν) :
    AList fun _ : κ => ν :=
  if key ∈ map then map else map.insert key value

theorem lookup_orInsert (map : AList fun _ : κ => ν) (key : κ) (value : ν) (other : κ) :
    (orInsert map key value).lookup other =
      (map.lookup other).or (if other = key then some value else none) := by
  unfold orInsert
  by_cases hother : other = key
  · subst hother
    split
    next hmem =>
      obtain ⟨found, hfound⟩ := Option.isSome_iff_exists.1 (AList.lookup_isSome.2 hmem)
      rw [hfound, Option.some_or]
    next hmem => rw [AList.lookup_eq_none.2 hmem, AList.lookup_insert, if_pos rfl, Option.none_or]
  · rw [if_neg hother, Option.or_none]
    split
    · rfl
    · exact AList.lookup_insert_ne hother

/-! ## Lists with keys -/

/-- Where keys are not repeated, the entry found is the one of the key. -/
theorem find?_key_eq_some {α : Type*} {key : α → κ} {entries : List α}
    (hnodup : (entries.map key).Nodup) {k : κ} {entry : α} :
    entries.find? (key · = k) = some entry ↔ entry ∈ entries ∧ key entry = k := by
  constructor
  · intro hfind
    exact ⟨mem_of_find?_eq_some hfind, by simpa using find?_some hfind⟩
  · rintro ⟨hmem, rfl⟩
    cases hfind : entries.find? (key · = key entry) with
    | none => exact absurd (find?_eq_none.1 hfind entry hmem) (by simp)
    | some found =>
      have hsame : key found = key entry := by simpa using find?_some hfind
      rw [inj_on_of_nodup_map hnodup (mem_of_find?_eq_some hfind) hmem hsame]

end Ail.Lib
