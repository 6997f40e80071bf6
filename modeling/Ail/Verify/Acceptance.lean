import Ail.Verify.Pipeline

/-!
# Failures and the decision

A report can hold a failure and still be accepted: the policy decides on
the findings of stages 1 to 16, and stages 18 to 22 add theirs to the
report afterwards. A report with a failure is rejected if what the late
stages look at is in order, or if the rules hold a gate for another
profile.
-/

namespace Ail.Verify

open Ail.Core Lib VerificationPipeline List

variable {F : Type} {env : PipelineEnv F} {ctx : PipelineContext F} {graph : SemanticGraph}
  {entry : VerificationEntry} {manifestCaps : List String}

/-! ## The late stages -/

/-- What stages 18, 20, 21 and 22 look at is in order. -/
structure LateChecksPass (env : PipelineEnv F) (ctx : PipelineContext F) : Prop where
  /-- Scope, approver and reason of each approval are given. -/
  approvals : ∀ approval ∈ ctx.approvals, approvalComplete approval = true
  /-- No body uses a resource or an effect out of order. -/
  ordered : ∀ node ∈ ctx.graph.nodes, ¬ Disordered env.std.toCharTables env.order node
  /-- The hash, if one is given, is that of the capabilities of the graph. -/
  hash : ∀ expected, ctx.artifactManifestHash = some expected →
    computeCapsHash (orderedSet (graphCaps ctx.graph)) = expected
  /-- The manifest lists the capabilities of the graph, each as often. -/
  caps : (graphCaps ctx.graph).Perm ctx.manifestCaps
  /-- Hashes of artifacts that are given twice agree. -/
  artifacts : ∀ artifact ∈ ctx.artifacts,
    artifact.expectedHash = "" ∨ artifact.actualHash = "" ∨
      artifact.expectedHash = artifact.actualHash

theorem noneFailed_checkApprovalRecords {approvals : List ApprovalRecord} :
    NoneFailed (checkApprovalRecords approvals) ↔
      ∀ approval ∈ approvals, approvalComplete approval = true := by
  unfold checkApprovalRecords
  split
  next hnil => simp [hnil]
  next =>
    simp only [NoneFailed, mem_map, forall_exists_index, and_imp, forall_apply_eq_imp_iff₂]
    refine forall₂_congr fun approval _ => ?_
    split <;> simp_all

theorem noneFailed_lowerAnf : NoneFailed (lowerAnf graph) := by
  unfold lowerAnf
  simp only [noneFailed_append]
  refine ⟨?_, ?_⟩
  · simp only [NoneFailed, mem_map]
    rintro entry ⟨node, -, rfl⟩
    simp
  · split <;> simp

theorem ordering_state_ne_failed_iff {tables : CharTables} {order : HashOrder}
    {nodes : List GraphNode} (hok : checkAnfOrderingOf tables order nodes = .ok entry) :
    entry.state ≠ .failed ↔ ∀ node ∈ nodes, ¬ Disordered tables order node := by
  induction nodes with
  | nil =>
    cases hok
    simp
  | cons node nodes ih =>
    unfold checkAnfOrderingOf at hok
    rw [forall_mem_cons]
    cases hbody : node.bodyExpr with
    | none =>
      rw [hbody] at hok
      rw [ih hok, and_iff_right (by simp [Disordered, hbody])]
    | some body =>
      simp only [hbody, bind_eq_ok] at hok
      obtain ⟨violation, hviolation, hok⟩ := hok
      cases violation with
      | some evidence =>
        cases hok
        have hdisordered : Disordered tables order node := ⟨body, hbody, evidence, hviolation⟩
        simp [hdisordered]
      | none =>
        have hordered : ¬ Disordered tables order node := by
          rintro ⟨other, hother, evidence, hevidence⟩
          cases hother.symm.trans hbody
          rw [hviolation] at hevidence
          cases hevidence
        rw [ih hok, and_iff_right hordered]

theorem validateManifest_state_ne_failed_iff {hash : Option String} :
    (validateManifest graph manifestCaps hash).state ≠ .failed ↔
      (∀ expected, hash = some expected →
        computeCapsHash (orderedSet (graphCaps graph)) = expected) ∧
      orderedSet (graphCaps graph) = orderedSet manifestCaps := by
  have hempty : manifestCaps = [] ∧ orderedSet (graphCaps graph) = [] →
      orderedSet (graphCaps graph) = orderedSet manifestCaps := by
    rintro ⟨rfl, hcaps⟩
    exact hcaps
  unfold validateManifest
  simp only
  cases hmismatch : hash.filter (computeCapsHash (orderedSet (graphCaps graph)) ≠ ·) with
  | some expected =>
    simp_all
  | none =>
    have hhash : ∀ expected, hash = some expected →
        computeCapsHash (orderedSet (graphCaps graph)) = expected := by
      simpa using hmismatch
    rw [and_iff_right hhash]
    split_ifs with hnone hsame
    · simpa using hempty hnone
    · simpa using hsame
    · simpa using hsame

theorem noneFailed_manifestEntries {caps remaining : List String} :
    NoneFailed (manifestEntries caps remaining) ↔ caps.Perm remaining := by
  induction caps generalizing remaining with
  | nil =>
    rw [manifestEntries]
    cases remaining with
    | nil => simp
    | cons cap remaining => simp
  | cons cap caps ih =>
    rw [manifestEntries, noneFailed_cons, cons_perm_iff_perm_erase]
    split <;> simp_all

theorem noneFailed_artifacts {artifacts : List ArtifactEntry} :
    NoneFailed (artifacts.map artifactEntry) ↔ ∀ artifact ∈ artifacts,
      artifact.expectedHash = "" ∨ artifact.actualHash = "" ∨
        artifact.expectedHash = artifact.actualHash := by
  simp only [NoneFailed, mem_map, forall_exists_index, and_imp, forall_apply_eq_imp_iff₂]
  refine forall₂_congr fun artifact _ => ?_
  rw [← or_assoc]
  unfold artifactEntry
  split_ifs <;> simp_all

/-- Stage 21 compares sets and is made always, stage 22 compares lists
and is made for a manifest that is not empty. -/
theorem caps_perm_iff :
    (graphCaps graph).Perm manifestCaps ↔
      orderedSet (graphCaps graph) = orderedSet manifestCaps ∧
        NoneFailed (if manifestCaps ≠ [] then
          (CodegenChecker.checkManifestConsistency graph manifestCaps).entries else []) := by
  simp only [CodegenChecker.checkManifestConsistency]
  split_ifs with hne
  · rw [noneFailed_normalizeEntries, noneFailed_manifestEntries]
    exact ⟨fun hperm => ⟨orderedSet_eq_iff.2 fun _ => hperm.mem_iff, hperm⟩, And.right⟩
  · obtain rfl : manifestCaps = [] := not_not.1 hne
    rw [perm_nil, orderedSet_eq_iff, eq_nil_iff_forall_not_mem]
    simp

theorem noneFailed_lateEntries {decision : PolicyDecision} {ordering : VerificationEntry}
    (hordering : checkAnfOrdering env.std.toCharTables env.order ctx.graph = .ok ordering) :
    NoneFailed (lateEntries env ctx decision ordering) ↔ LateChecksPass env ctx := by
  have hstate := ordering_state_ne_failed_iff hordering
  simp only [lateEntries, flatten_cons, noneFailed_append, noneFailed_cons, noneFailed_nil,
    executed, noneFailed_checkApprovalRecords, noneFailed_lowerAnf, hstate,
    validateManifest_state_ne_failed_iff, CodegenChecker.checkArtifacts,
    noneFailed_normalizeEntries, noneFailed_artifacts]
  constructor
  · rintro ⟨-, happrovals, -, ⟨hordered, -⟩, ⟨⟨hhash, hcaps⟩, -⟩, -, hartifacts, hmanifest, -⟩
    exact ⟨happrovals, hordered, hhash, caps_perm_iff.2 ⟨hcaps, hmanifest⟩, hartifacts⟩
  · rintro ⟨happrovals, hordered, hhash, hperm, hartifacts⟩
    obtain ⟨hcaps, hmanifest⟩ := caps_perm_iff.1 hperm
    exact ⟨by simp, happrovals, trivial, ⟨hordered, trivial⟩, ⟨⟨hhash, hcaps⟩, trivial⟩, by simp,
      hartifacts, hmanifest, by simp⟩

/-! ## The decision -/

theorem isFailed_enforceProfileDiagnostics {decision : PolicyDecision}
    {violations : List PolicyViolation} :
    (enforceProfileDiagnostics decision violations).isFailed = true ↔
      decision.isFailed = true ∨ violations ≠ [] := by
  unfold enforceProfileDiagnostics
  split_ifs with hnil
  · simp [hnil]
  · cases decision <;> simp [PolicyDecision.isFailed, hnil]

theorem mem_mismatchedGates {profile : String} :
    profile ∈ mismatchedGates ctx ↔
      PolicyRule.profileGate profile ∈ ctx.rules ∧ profile ≠ ctx.profile := by
  simp only [mismatchedGates, mem_filterMap]
  constructor
  · rintro ⟨rule, hrule, heq⟩
    split at heq
    · split_ifs at heq with hne
      cases heq
      exact ⟨hrule, hne⟩
    · cases heq
  · rintro ⟨hrule, hne⟩
    exact ⟨_, hrule, by simp [hne]⟩

theorem decision_isFailed_iff {report : Findings} :
    (decision env ctx report).isFailed = true ↔
      (∃ rule ∈ ctx.rules, rule.Rejects env.ratios (policyInput ctx report)) ∨
        ∃ profile, PolicyRule.profileGate profile ∈ ctx.rules ∧ profile ≠ ctx.profile := by
  rw [decision, isFailed_enforceProfileDiagnostics, evaluate_isFailed_iff, ne_eq,
    eq_nil_iff_forall_not_mem]
  simp [mem_mismatchedGates, policyInput]

/-! ## The report -/

theorem canonicalize_entries {entries : List VerificationEntry}
    {solverDiagnostics : List SolverDiagnostic} :
    entry ∈ (Findings.canonicalize entries solverDiagnostics).entries ↔ entry ∈ entries := by
  simp [Findings.canonicalize]

section Run

variable {text : Option String} {base : Option SemanticGraph} {report : PipelineReport}

/-- Under a gate for the profile that was asked for, a failure in the
report rejects the run if the late stages have nothing to fail on, or if
the rules also hold a gate for another profile. -/
theorem failed_entry_rejected (hrun : runWithChangeset env ctx text base = .ok report)
    (hgate : .profileGate ctx.profile ∈ ctx.rules)
    (hinputs : LateChecksPass env ctx ∨
      ∃ profile, .profileGate profile ∈ ctx.rules ∧ profile ≠ ctx.profile)
    (hfailed : ∃ entry ∈ report.entries, entry.state = .failed) :
    report.policyDecision.isFailed = true := by
  obtain ⟨found, ordering, hfound, hordering, rfl⟩ := runWithChangeset_eq_ok_iff.1 hrun
  obtain ⟨entry, hentry, hfailed⟩ := hfailed
  rw [decision_isFailed_iff]
  rcases hinputs with hlate | hother
  · rcases mem_append.1 (canonicalize_entries.1 hentry) with hearly | hentry
    · exact .inl ⟨_, hgate, rejects_of_failed _ hearly hfailed⟩
    · exact absurd hfailed ((noneFailed_lateEntries hordering).2 hlate entry hentry)
  · exact .inr hother

end Run

/-- A run over the empty graph under the gate of the profile `test`. -/
def gatedRun (approvals : List ApprovalRecord) : PipelineContext Nat :=
  { graph := ⟨[], []⟩, profile := "test", solver := simpleSolver .ascii, approvals
    rules := [.profileGate "test"] }

/-- A changeset that cannot be read is rejected. -/
theorem failed_entry_rejected_unread :
    ∃ report, runWithChangeset .plain (gatedRun []) (some "") none = .ok report ∧
      (∃ entry ∈ report.entries, entry.state = .failed) ∧
      report.policyDecision.isFailed = true := by
  have hlate : LateChecksPass .plain (gatedRun []) := by
    constructor <;> simp [gatedRun, graphCaps]
  have hfailed : ∃ report, runWithChangeset .plain (gatedRun []) (some "") none = .ok report ∧
      ∃ entry ∈ report.entries, entry.state = .failed := ⟨_, rfl, by decide⟩
  obtain ⟨report, hrun, hfailed⟩ := hfailed
  exact ⟨report, hrun, hfailed,
    failed_entry_rejected hrun (by simp [gatedRun]) (.inl hlate) hfailed⟩

/-- An approval without scope, approver and reason fails stage 18 and the
run is accepted. -/
theorem failed_approval_accepted :
    ∃ report,
      runWithChangeset .plain (gatedRun [⟨"", "", "", .strong⟩]) none none = .ok report ∧
      .profileGate (gatedRun [⟨"", "", "", .strong⟩]).profile ∈
        (gatedRun [⟨"", "", "", .strong⟩]).rules ∧
      (∃ entry ∈ report.entries, entry.state = .failed) ∧
      report.policyDecision.isFailed = false :=
  ⟨_, rfl, mem_singleton_self _, by decide, rfl⟩

end Ail.Verify
