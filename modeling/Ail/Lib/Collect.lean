import Ail.Lib.Outcome
import Mathlib.Data.List.Induction
import Mathlib.Data.List.Nodup

/-!
# Collecting results under keys

A loop runs an action for each of its inputs and keeps the first result
for every key. A later result of the same key has to have the same value,
otherwise the loop fails.
-/

namespace Ail.Lib

open List

universe u v w x y

variable {ε : Type u} {α : Type v} {β : Type w} {κ : Type x} {ν : Type y} [DecidableEq κ]
  [DecidableEq ν] {kept kept' : List β} {inputs : List α}

/-- One round of the loop. -/
def collectStep (key : β → κ) (value : β → ν) (conflict : β → β → ε) (run : α → Except ε β)
    (kept : List β) (input : α) : Except ε (List β) :=
  match run input with
  | .error failure => .error failure
  | .ok result =>
    match kept.find? (key · = key result) with
    | some previous =>
      if value previous ≠ value result then .error (conflict previous result) else .ok kept
    | none => .ok (kept ++ [result])

/-- What is kept after the given inputs. -/
structure Collected (key : β → κ) (value : β → ν) (run : α → Except ε β) (inputs : List α)
    (kept : List β) : Prop where
  nodup : (kept.map key).Nodup
  covered : ∀ input ∈ inputs, ∃ result, run input = .ok result ∧
    ∃ entry ∈ kept, key entry = key result ∧ value entry = value result
  origin : ∀ entry ∈ kept, ∃ input ∈ inputs, run input = .ok entry

variable {key : β → κ} {value : β → ν} {conflict : β → β → ε} {run : α → Except ε β}

omit [DecidableEq κ] [DecidableEq ν] in
theorem collected_nil : Collected key value run [] [] :=
  ⟨nodup_nil, fun _ hmem => absurd hmem not_mem_nil,
    fun _ hmem => nomatch hmem⟩

/-- A round that succeeds ran its action, and the result is new or has
the value that was kept for its key. -/
theorem collectStep_eq_ok {input : α}
    (hstep : collectStep key value conflict run kept input = .ok kept') :
    ∃ result, run input = .ok result ∧
      ((kept' = kept ++ [result] ∧ key result ∉ kept.map key) ∨
        (kept' = kept ∧ ∃ previous ∈ kept, key previous = key result ∧
          value previous = value result)) := by
  unfold collectStep at hstep
  split at hstep
  next => cases hstep
  next result hrun =>
    refine ⟨result, hrun, ?_⟩
    split at hstep
    next previous hfind =>
      split at hstep
      next => cases hstep
      next hsame =>
        refine .inr ⟨(Except.ok.inj hstep).symm, previous, mem_of_find?_eq_some hfind, ?_,
          not_not.1 hsame⟩
        simpa using find?_some hfind
    next hnone =>
      refine .inl ⟨(Except.ok.inj hstep).symm, fun hmem => ?_⟩
      obtain ⟨previous, hprevious, heq⟩ := mem_map.1 hmem
      exact find?_eq_none.1 hnone previous hprevious (decide_eq_true heq)

/-- One input keeps the invariant. -/
theorem Collected.step {input : α} (inv : Collected key value run inputs kept)
    (hstep : collectStep key value conflict run kept input = .ok kept') :
    Collected key value run (inputs ++ [input]) kept' := by
  obtain ⟨result, hrun, ⟨rfl, hnew⟩ | ⟨rfl, previous, hprevious, hkey, hvalue⟩⟩ :=
    collectStep_eq_ok hstep
  · refine ⟨?_, fun other hmem => ?_, fun entry hmem => ?_⟩
    · rw [map_append, nodup_append]
      exact ⟨inv.nodup, nodup_singleton _, by simpa using hnew⟩
    · rcases mem_append.1 hmem with hearlier | hlast
      · obtain ⟨found, hfound, entry, hentry, heq⟩ := inv.covered other hearlier
        exact ⟨found, hfound, entry, mem_append_left _ hentry, heq⟩
      · obtain rfl := mem_singleton.1 hlast
        exact ⟨result, hrun, result, mem_append_right _ (.head _), rfl, rfl⟩
    · rcases mem_append.1 hmem with hearlier | hlast
      · obtain ⟨origin, horigin, heq⟩ := inv.origin entry hearlier
        exact ⟨origin, mem_append_left _ horigin, heq⟩
      · obtain rfl := mem_singleton.1 hlast
        exact ⟨input, mem_append_right _ (.head _), hrun⟩
  · refine ⟨inv.nodup, fun other hmem => ?_, fun entry hmem => ?_⟩
    · rcases mem_append.1 hmem with hearlier | hlast
      · exact inv.covered other hearlier
      · obtain rfl := mem_singleton.1 hlast
        exact ⟨result, hrun, previous, hprevious, hkey, hvalue⟩
    · obtain ⟨origin, horigin, heq⟩ := inv.origin entry hmem
      exact ⟨origin, mem_append_left _ horigin, heq⟩

/-- A whole collection keeps it. -/
theorem collected_of_foldlM
    (hok : inputs.foldlM (collectStep key value conflict run) [] = .ok kept) :
    Collected key value run inputs kept := by
  induction inputs using List.reverseRecOn generalizing kept with
  | nil => exact Except.ok.inj hok ▸ collected_nil
  | append_singleton earlier input ih =>
    rw [foldlM_append, bind_eq_ok] at hok
    obtain ⟨middle, hearlier, hlast⟩ := hok
    rw [foldlM_cons, bind_eq_ok] at hlast
    obtain ⟨final, hstep, heq⟩ := hlast
    cases heq
    exact (ih hearlier).step hstep

/-- Results of one key have one value. -/
def Consistent (key : β → κ) (value : β → ν) (run : α → Except ε β) (inputs : List α) : Prop :=
  ∀ a ∈ inputs, ∀ b ∈ inputs, ∀ first second, run a = .ok first → run b = .ok second →
    key first = key second → value first = value second

/-- The loop succeeds if all its actions do and their results are
consistent. -/
theorem exists_foldlM_of_consistent (hruns : ∀ input ∈ inputs, ∃ result, run input = .ok result)
    (hsame : Consistent key value run inputs) :
    ∃ kept, inputs.foldlM (collectStep key value conflict run) [] = .ok kept := by
  induction inputs using List.reverseRecOn with
  | nil => exact ⟨[], rfl⟩
  | append_singleton earlier input ih =>
    have hearlier : ∀ a ∈ earlier, a ∈ earlier ++ [input] := fun a => mem_append_left _
    have hinput : input ∈ earlier ++ [input] := mem_append_right _ (.head _)
    obtain ⟨kept, hok⟩ := ih (fun a ha => hruns a (hearlier a ha))
      fun a ha b hb => hsame a (hearlier a ha) b (hearlier b hb)
    obtain ⟨result, hrun⟩ := hruns input hinput
    have hstep : ∃ kept', collectStep key value conflict run kept input = .ok kept' := by
      unfold collectStep
      rw [hrun]
      dsimp only
      split
      next previous hfind =>
        obtain ⟨origin, horigin, hfrom⟩ :=
          (collected_of_foldlM hok).origin previous (mem_of_find?_eq_some hfind)
        have hkey : key previous = key result := by simpa using find?_some hfind
        have hvalue := hsame origin (hearlier origin horigin) input hinput previous
          result hfrom hrun
          hkey
        exact ⟨kept, if_neg (not_not.2 hvalue)⟩
      next => exact ⟨kept ++ [result], rfl⟩
    obtain ⟨kept', hkept'⟩ := hstep
    refine ⟨kept', ?_⟩
    rw [foldlM_append, bind_eq_ok]
    exact ⟨kept, hok, by rw [foldlM_cons, hkept']; rfl⟩

end Ail.Lib
