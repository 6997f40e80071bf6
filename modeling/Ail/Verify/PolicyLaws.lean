import Ail.Verify.Policy

/-!
# Laws of the policy engine

The gate on proof sufficiency counts a runtime check once as verified and
once more in the total, as if it were another entry that is not proven.
-/

namespace Ail.Verify

open List SummaryCounts

/-! ## Proof sufficiency -/

section Sufficiency

variable {entries : List VerificationEntry} {report : Findings} {ratios : Ratios ℚ}

/-- The entries that count against the gate. -/
def openCount (entries : List VerificationEntry) : Nat :=
  entries.countP (·.state ∈ [.assumed, .unverified, .unsafe_, .failed])

def runtimeCount (entries : List VerificationEntry) : Nat :=
  entries.countP (·.state = .runtimeChecked)

/-- The runtime checks are counted twice. -/
theorem total_fromEntries :
    (fromEntries entries).total = entries.length + runtimeCount entries ∧
      (fromEntries entries).total = (fromEntries entries).verified +
        (openCount entries + runtimeCount entries) := by
  simp only [total, fromEntries, openCount, runtimeCount,
    Bool.decide_or, mem_cons, not_mem_nil, or_false]
  induction entries with
  | nil => simp
  | cons entry entries ih =>
    simp only [countP_cons]
    cases entry.state <;> simp <;> omega

/-- The share of open entries. -/
def openShare (entries : List VerificationEntry) : ℚ := openCount entries / entries.length

/-- The share the gate computes. -/
def gatedShare (entries : List VerificationEntry) : ℚ :=
  (openCount entries + runtimeCount entries) / (entries.length + runtimeCount entries)

@[simp] theorem gatedShare_nil : gatedShare [] = openShare [] := by
  simp [gatedShare, openShare, runtimeCount]

theorem openShare_le_gatedShare : openShare entries ≤ gatedShare entries := by
  cases entries with
  | nil => rw [gatedShare_nil]
  | cons entry entries =>
    have hopen : (openCount (entry :: entries) : ℚ) ≤ (entry :: entries).length := by
      exact_mod_cast countP_le_length
    have hpos : (0 : ℚ) < (entry :: entries).length := by simp; positivity
    rw [openShare, gatedShare, div_le_div_iff₀ hpos (by linarith)]
    nlinarith

/-- The gate is exact unless the bound lies between the share of the open
entries and the share with the runtime checks added to both counts. -/
theorem evalProofSufficiency_exact_iff
    (hexact : ∀ part whole bound,
      ratios.exceeds part whole bound = decide (bound < (part : ℚ) / (whole : ℚ)))
    (hcounts : report.summaryCounts = .fromEntries report.entries) (bound : ℚ) :
    ((evalProofSufficiency ratios report bound).isFailed = true ↔
        report.entries ≠ [] ∧ bound < openShare report.entries) ↔
      ¬ (openShare report.entries ≤ bound ∧ bound < gatedShare report.entries) := by
  obtain ⟨htotal, hverified⟩ := @total_fromEntries report.entries
  have hfailed : (evalProofSufficiency ratios report bound).isFailed = true ↔
      report.entries ≠ [] ∧ bound < gatedShare report.entries := by
    rw [evalProofSufficiency, hcounts, hverified, Nat.add_sub_cancel_left, ← hverified, htotal]
    simp only [hexact, gatedShare, Nat.cast_add, decide_eq_true_eq]
    split_ifs with hzero hexceeds
    · have hnil := length_eq_zero_iff.1 (Nat.eq_zero_of_add_eq_zero_right hzero)
      simp [PolicyDecision.isFailed, hnil]
    · have hne : report.entries ≠ [] := fun hnil => hzero (by simp [hnil, runtimeCount])
      simp [PolicyDecision.isFailed, hne, hexceeds]
    · simp [PolicyDecision.isFailed, hexceeds]
  have hle := @openShare_le_gatedShare report.entries
  rw [hfailed]
  obtain hlt | hge := lt_or_ge bound (openShare report.entries)
  · simp [hlt, hlt.trans_le hle]
  · have hne : bound < gatedShare report.entries → report.entries ≠ [] := by
      intro hgated hnil
      rw [hnil, gatedShare_nil] at hgated
      exact absurd hgated (not_lt.2 (hnil ▸ hge))
    have hnot := not_lt.2 hge
    tauto

def exactRatios : Ratios ℚ :=
  { exceeds := fun part whole bound => decide (bound < part / whole)
    quotientText := fun _ _ => "", boundText := fun _ => "" }

/-- A report on entries in the given states. -/
def findingsOf (states : List VerificationState) : Findings :=
  { entries := states.map fun state => { claim := "", state, scope := "s" }
    summaryCounts := .fromEntries (states.map fun state => { claim := "", state, scope := "s" })
    solverDiagnostics := [] }

/-- One assumption in two entries exceeds a third. -/
theorem evalProofSufficiency_exact_half :
    (evalProofSufficiency exactRatios (findingsOf [.proven, .assumed]) (1 / 3)).isFailed = true ∧
      openShare (findingsOf [.proven, .assumed]).entries = 1 / 2 := by
  refine ⟨((evalProofSufficiency_exact_iff (fun _ _ _ => rfl) rfl _).2 ?_).2 ?_, ?_⟩ <;>
    decide +kernel

/-- A runtime check alone exceeds a bound of zero, with no open entry. -/
theorem evalProofSufficiency_runtimeChecked :
    (evalProofSufficiency exactRatios (findingsOf [.runtimeChecked]) 0).isFailed = true ∧
      openShare (findingsOf [.runtimeChecked]).entries = 0 := by
  decide +kernel

end Sufficiency

end Ail.Verify
