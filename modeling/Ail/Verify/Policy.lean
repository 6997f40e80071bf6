import Ail.Verify.Proof
import Ail.Verify.Translation

/-!
# The policy engine

`PolicyEngine::evaluate` puts the findings of the checkers through a list
of rules and merges what they say: violations before missing approvals
before warnings. A rule reads the entries, their counts and the
diagnostics of the solver, together with the approval records.

`Rejects` says for each rule what makes it fail, and
`evaluate_isFailed_iff` that the engine fails exactly if some rule does.

The ratio of `ProofSufficiencyGate` is an `f64`; its comparison and its
rendering are parameters.
-/

namespace Ail.Verify

open Ail.Core Lib List

/-! ## Solver diagnostics -/

inductive SolverDiagnosticStatus where
  | timeout | resourceLimited | unsupported
  deriving DecidableEq, Ord

namespace SolverDiagnosticStatus

def asStr : SolverDiagnosticStatus → String
  | .timeout => "timeout"
  | .resourceLimited => "resource_limited"
  | .unsupported => "unsupported"

def issueCode : SolverDiagnosticStatus → String
  | .timeout => "VERIFY_SOLVER_TIMEOUT"
  | .resourceLimited => "VERIFY_SOLVER_RESOURCE_LIMITED"
  | .unsupported => "VERIFY_SOLVER_UNSUPPORTED"

/-- `solver_diagnostic_status_from_reason`: by the front of the text. -/
def ofReason (reason : String) : Option SolverDiagnosticStatus :=
  let normalized := (trim reason.toList).map Char.toLower
  let starts (part : String) := part.toList.isPrefixOf normalized
  if starts "solver_timeout:" then some .timeout
  else if starts "solver_resource_limited:" then some .resourceLimited
  else if starts "solver_unsupported:" then some .unsupported
  else none

def ofAttemptOutcome (outcome : String) : Option SolverDiagnosticStatus :=
  let normalized := (trim outcome.toList).map Char.toLower
  if normalized = "timeout".toList then some .timeout
  else if normalized = "resource_limited".toList then some .resourceLimited
  else if normalized = "unsupported".toList then some .unsupported
  else ofReason outcome

/-- The options of `solver_diagnostic_repair_options`. -/
def repairOptions : SolverDiagnosticStatus → List String
  | .timeout =>
    ["simplify the predicate or split it into smaller obligations",
      "provide a narrower precondition or invariant for the solver",
      "add a runtime check when static proof is not practical"]
  | .resourceLimited =>
    ["reduce solver search space with stronger local facts",
      "split the proof obligation into lower-cost predicates",
      "add a runtime check or explicit assumption with policy approval"]
  | .unsupported =>
    ["rewrite the predicate into the supported solver fragment",
      "add a runtime check for the unsupported condition",
      "record an explicit assumption when the boundary is policy-approved"]

end SolverDiagnosticStatus

/-- What one attempt of the solver says: its status and, if that shows,
the text that gives it. -/
def attemptStatus (attempt : ObligationAttempt) : Option (SolverDiagnosticStatus × Option String) :=
  match SolverDiagnosticStatus.ofAttemptOutcome attempt.outcome with
  | some status => some (status, attempt.evidence.or (some attempt.outcome))
  | none =>
    (attempt.evidence.bind SolverDiagnosticStatus.ofReason).map fun status =>
      (status, attempt.evidence)

def SourceStage.asStr : SourceStage → String
  | .contract => "contract"
  | .refinement => "refinement"
  | .resource => "resource"
  | .concurrency => "concurrency"
  | .boundary => "boundary"

structure SolverDiagnostic where
  code : String
  obligationId : String
  sourceStage : String
  status : SolverDiagnosticStatus
  reason : String
  repairOptions : List String
  deriving DecidableEq

/-- `SolverDiagnostic::from_ledger_entry`. The status and the reason come
from the same attempt, the first one that has a status. -/
def SolverDiagnostic.fromLedgerEntry (entry : ObligationLedgerEntry) : Option SolverDiagnostic :=
  ((entry.attempts.filter (·.stage = "solver")).findSome? attemptStatus).map fun (status, reason) =>
    { code := status.issueCode
      obligationId := entry.id
      sourceStage := entry.sourceStage.asStr
      status
      reason := reason.getD ("solver outcome classified as " ++ status.asStr)
      repairOptions := entry.repairOptions.foldl
        (fun options option => if option ∈ options then options else options ++ [option])
        status.repairOptions }

def SolverDiagnostic.cmp (a b : SolverDiagnostic) : Ordering :=
  (compare a.status b.status).then <| (compare a.code b.code).then <|
    (compare a.obligationId b.obligationId).then <| (compare a.sourceStage b.sourceStage).then <|
    (compare a.reason b.reason).then <| compare a.repairOptions b.repairOptions

def canonicalSolverDiagnostics (diagnostics : List SolverDiagnostic) : List SolverDiagnostic :=
  dedupAdjacent (diagnostics.insertionSort fun a b => (a.cmp b).isLE)

/-- The part of a report the policy reads. -/
structure Findings extends VerificationReport where
  summaryCounts : SummaryCounts
  solverDiagnostics : List SolverDiagnostic

/-! ## Decisions -/

inductive ApprovalStrength where
  | strong | weak
  deriving DecidableEq

structure ApprovalRecord where
  scope : String
  approver : String
  reason : String
  strength : ApprovalStrength := .strong

structure PolicyViolation where
  code : String
  scope : String
  message : String
  deriving DecidableEq

structure PolicyWarning where
  code : String
  scope : String
  message : String
  deriving DecidableEq

inductive PolicyDecision where
  | passed
  | passedWithWarnings (warnings : List PolicyWarning)
  | failed (violations : List PolicyViolation)
  | approvalRequired (scopes : List String)
  deriving DecidableEq

namespace PolicyDecision

def violations : PolicyDecision → List PolicyViolation
  | .failed violations => violations
  | _ => []

def approvalScopes : PolicyDecision → List String
  | .approvalRequired scopes => scopes
  | _ => []

def warnings : PolicyDecision → List PolicyWarning
  | .passedWithWarnings warnings => warnings
  | _ => []

def isFailed : PolicyDecision → Bool
  | .failed _ => true
  | _ => false

/-- The most severe of what was found. -/
def ofFound (violations : List PolicyViolation) (scopes : List String)
    (warnings : List PolicyWarning) : PolicyDecision :=
  if violations ≠ [] then .failed violations
  else if scopes ≠ [] then .approvalRequired scopes
  else if warnings ≠ [] then .passedWithWarnings warnings
  else .passed

variable {violations : List PolicyViolation} {warnings : List PolicyWarning} {scopes : List String}

theorem isFailed_ofFound :
    (ofFound violations scopes warnings).isFailed = true ↔ violations ≠ [] := by
  unfold ofFound
  split_ifs <;> simp_all [isFailed]

theorem violations_ofFound : (ofFound violations scopes warnings).violations = violations := by
  unfold ofFound
  split_ifs <;> simp_all [PolicyDecision.violations]

end PolicyDecision

/-- A rule; `F` is the type of the ratios. -/
inductive PolicyRule (F : Type) where
  | noUnsafe
  | noUnverifiedPublicApi
  | requireApproval
  | profileGate (profile : String)
  | noPublicApiChangesWithoutApproval
  | proofSufficiencyGate (maxAssumedRatio : F)

/-- What is done with ratios. -/
structure Ratios (F : Type) where
  /-- The quotient of two counts is greater than the bound. -/
  exceeds : Nat → Nat → F → Bool
  /-- The quotient in percent, with one decimal. -/
  quotientText : Nat → Nat → String
  /-- The bound in percent, with one decimal. -/
  boundText : F → String

structure PublicApiChange where
  scope : String
  description : String

structure PolicyInput (F : Type) where
  report : Findings
  rules : List (PolicyRule F)
  approvals : List ApprovalRecord
  publicApiChanges : List PublicApiChange

def hasAnyApproval (approvals : List ApprovalRecord) (scope : String) : Bool :=
  approvals.any (·.scope = scope)

def isPublicScope (scope : String) : Bool := startsWith scope "pub::"

/-! ## The profile gate -/

inductive GateResult where
  | pass
  | warn (code message : String)
  | requireApproval
  | block (code message : String)
  deriving DecidableEq

def GateResult.isBlock : GateResult → Bool
  | .block _ _ => true
  | _ => false

def approvalHasCriticalMetadata (approval : ApprovalRecord) : Bool :=
  !isBlank approval.approver && !isBlank approval.reason

variable (profile : String) (approval : Option ApprovalRecord)

def gateUnsafe : GateResult :=
  match profile with
  | "critical" =>
    .block "POLICY_PROFILE_GATE" ("profile '" ++ profile ++ "' always blocks Unsafe entries")
  | "prod" =>
    if approval.any (·.strength = .strong) then .pass
    else .block "POLICY_UNSAFE_BLOCKED"
      ("profile '" ++ profile ++ "' blocks Unsafe without strong security exception")
  | "staging" => .block "POLICY_PROFILE_GATE" ("profile '" ++ profile ++ "' blocks Unsafe entries")
  | "draft" | "dev" | "test" =>
    if approval.isSome then .pass
    else .block "POLICY_UNSAFE_BLOCKED"
      ("profile '" ++ profile ++ "' blocks Unsafe without approval")
  | _ =>
    .block "POLICY_PROFILE_GATE"
      ("unknown profile '" ++ profile ++ "' treated as conservative — blocks Unsafe")

def gateUnverified (isPublic : Bool) : GateResult :=
  match profile with
  | "prod" | "staging" | "critical" =>
    .block "POLICY_PROFILE_GATE" ("profile '" ++ profile ++ "' blocks Unverified entries")
  | "dev" =>
    if isPublic then .block "POLICY_PROFILE_GATE" "dev profile blocks Unverified in public scope"
    else .pass
  | "draft" =>
    .warn "POLICY_UNVERIFIED_WARN"
      "entry has Unverified state in draft profile; annotation recommended"
  | "test" => .pass
  | _ =>
    .block "POLICY_PROFILE_GATE"
      ("unknown profile '" ++ profile ++ "' treated as conservative — blocks Unverified")

/-- An assumption in `critical` and unknown profiles. -/
def gateAssumedStrictly (incomplete weak : String) : GateResult :=
  match approval with
  | none => .requireApproval
  | some approval =>
    if approval.strength = .strong then
      if approvalHasCriticalMetadata approval then .pass
      else .block "POLICY_CRITICAL_APPROVAL_INCOMPLETE" incomplete
    else .block "POLICY_WEAK_ASSUMPTION" weak

def gateAssumed : GateResult :=
  match profile with
  | "critical" =>
    gateAssumedStrictly approval
      "critical profile requires Assumed approvals to include approver and reason"
      "critical profile rejects Assumed with only Weak approval"
  | "prod" =>
    match approval with
    | none => .requireApproval
    | some approval =>
      if approval.strength = .strong then .pass
      else .block "POLICY_WEAK_ASSUMPTION"
        "prod profile requires Strong approval for Assumed entries"
  | "staging" | "dev" => if approval.isSome then .pass else .requireApproval
  | "draft" =>
    .warn "POLICY_ASSUMED_WARN"
      "Assumed entry in draft profile; boundary annotation recommended"
  | "test" => .pass
  | _ =>
    gateAssumedStrictly approval
      ("unknown profile '" ++ profile ++
        "' treated as conservative — requires Assumed approval metadata")
      ("unknown profile '" ++ profile ++ "' treated as conservative — rejects weak Assumed")

def gateRuntimeChecked : GateResult :=
  match profile with
  | "critical" =>
    .warn "POLICY_RUNTIME_CHECK_ADVISORY"
      ("critical profile: entry has RuntimeChecked state — a runtime assertion is not a formal " ++
        "proof; consider upgrading to Proven for critical invariants")
  | "draft" | "dev" | "test" | "staging" | "prod" => .pass
  | _ =>
    .warn "POLICY_RUNTIME_CHECK_ADVISORY"
      ("unknown profile '" ++ profile ++ "' treated as conservative — RuntimeChecked entry " ++
        "carries advisory warning")

def profileGateResult (state : VerificationState) (isPublic : Bool)
    (approval : Option ApprovalRecord) : GateResult :=
  match state with
  | .failed =>
    .block "POLICY_PROFILE_GATE" ("profile '" ++ profile ++ "' always blocks Failed entries")
  | .unsafe_ => gateUnsafe profile approval
  | .unverified => gateUnverified profile isPublic
  | .assumed => gateAssumed profile approval
  | .runtimeChecked => gateRuntimeChecked profile
  | .proven => .pass

/-- The gate for one entry, with the first approval for its scope. -/
def gateEntry (approvals : List ApprovalRecord) (entry : VerificationEntry) : GateResult :=
  profileGateResult profile entry.state (isPublicScope entry.scope)
    (approvals.find? (·.scope = entry.scope))

def solverViolation (diagnostic : SolverDiagnostic) : PolicyViolation :=
  { code := "POLICY_SOLVER_DIAGNOSTIC_BLOCKED"
    scope := diagnostic.obligationId
    message := "critical profile blocks unresolved solver diagnostic '" ++
      diagnostic.obligationId ++ "' (" ++ diagnostic.status.asStr ++ "): " ++ diagnostic.reason }

/-- The violation of an entry that the gate blocks. -/
def gateViolation (approvals : List ApprovalRecord) (entry : VerificationEntry) :
    Option PolicyViolation :=
  match gateEntry profile approvals entry with
  | .block code message => some ⟨code, entry.scope, message⟩
  | _ => none

def gateWarning (approvals : List ApprovalRecord) (entry : VerificationEntry) :
    Option PolicyWarning :=
  match gateEntry profile approvals entry with
  | .warn code message => some ⟨code, entry.scope, message⟩
  | _ => none

variable (report : Findings)

def evalProfileGate (profile : String) (approvals : List ApprovalRecord) : PolicyDecision :=
  let solver := if isCriticalLike profile then report.solverDiagnostics.map solverViolation else []
  .ofFound (report.entries.filterMap (gateViolation profile approvals) ++ solver)
    ((report.entries.filter (gateEntry profile approvals · = .requireApproval)).map (·.scope))
    (report.entries.filterMap (gateWarning profile approvals))

/-! ## The other rules -/

/-- Fails if there are violations. -/
def failIfAny (violations : List PolicyViolation) : PolicyDecision :=
  if violations = [] then .passed else .failed violations

/-- The entries in state `Unsafe` for whose scope there is no approval. -/
def unapprovedUnsafe (approvals : List ApprovalRecord) : List VerificationEntry :=
  report.entries.filter fun entry =>
    entry.state = .unsafe_ && !hasAnyApproval approvals entry.scope

def evalNoUnsafe (approvals : List ApprovalRecord) : PolicyDecision :=
  failIfAny <| (unapprovedUnsafe report approvals).map fun entry =>
    { code := "POLICY_UNSAFE_BLOCKED", scope := entry.scope
      message := "entry '" ++ entry.scope ++ "' has Unsafe state and no explicit approval record" }

def evalNoUnverifiedPublicApi : PolicyDecision :=
  failIfAny <| (report.entries.filter fun entry =>
      entry.state = .unverified && isPublicScope entry.scope).map fun entry =>
    { code := "POLICY_UNVERIFIED_PUBLIC_API", scope := entry.scope
      message := "public-scope entry '" ++ entry.scope ++
        "' has Unverified state; public API must be verified" }

def evalRequireApproval (approvals : List ApprovalRecord) : PolicyDecision :=
  match (unapprovedUnsafe report approvals).map (·.scope) with
  | [] => .passed
  | scopes => .approvalRequired scopes

def evalNoPublicApiChanges (changes : List PublicApiChange) (approvals : List ApprovalRecord) :
    PolicyDecision :=
  failIfAny <| (changes.filter (!hasAnyApproval approvals ·.scope)).map fun change =>
    { code := "POLICY_PUBLIC_API_CHANGED", scope := change.scope
      message := "public API '" ++ change.scope ++ "' changed without approval: " ++
        change.description }

/-- The sum of all counts. Runtime checks are counted twice. -/
def SummaryCounts.total (counts : SummaryCounts) : Nat :=
  counts.verified + counts.runtimeChecked + counts.assumed + counts.unverified + counts.unsafe_ +
    counts.failed

variable {F : Type} (ratios : Ratios F) {entry : VerificationEntry} {input : PolicyInput F}

def evalProofSufficiency (report : Findings) (maxAssumedRatio : F) : PolicyDecision :=
  let total := report.summaryCounts.total
  let nonProven := total - report.summaryCounts.verified
  if total = 0 then .passed
  else if ratios.exceeds nonProven total maxAssumedRatio then
    .failed [{ code := "POLICY_PROOF_SUFFICIENCY", scope := "summary"
               message := "proof sufficiency gate: " ++ toString nonProven ++ "/" ++
                 toString total ++ " (" ++ ratios.quotientText nonProven total ++
                 "%) entries non-proven, exceeds max allowed ratio " ++
                 ratios.boundText maxAssumedRatio ++ "%" }]
  else .passed

def PolicyEngine.evaluateRule (input : PolicyInput F) : PolicyRule F → PolicyDecision
  | .noUnsafe => evalNoUnsafe input.report input.approvals
  | .noUnverifiedPublicApi => evalNoUnverifiedPublicApi input.report
  | .requireApproval => evalRequireApproval input.report input.approvals
  | .profileGate profile => evalProfileGate input.report profile input.approvals
  | .noPublicApiChangesWithoutApproval =>
    evalNoPublicApiChanges input.publicApiChanges input.approvals
  | .proofSufficiencyGate maxAssumedRatio =>
    evalProofSufficiency ratios input.report maxAssumedRatio

def PolicyEngine.evaluate (input : PolicyInput F) : PolicyDecision :=
  let decisions := input.rules.map (PolicyEngine.evaluateRule ratios input)
  .ofFound (decisions.flatMap (·.violations)) (decisions.flatMap (·.approvalScopes))
    (decisions.flatMap (·.warnings))

/-! ## What makes the engine fail -/

variable {ratios}

/-- Why a rule fails on the findings. -/
def PolicyRule.Rejects (ratios : Ratios F) (input : PolicyInput F) : PolicyRule F → Prop
  | .noUnsafe => unapprovedUnsafe input.report input.approvals ≠ []
  | .noUnverifiedPublicApi =>
    ∃ entry ∈ input.report.entries, entry.state = .unverified ∧ isPublicScope entry.scope = true
  | .requireApproval => False
  | .profileGate profile =>
    (∃ entry ∈ input.report.entries, (gateEntry profile input.approvals entry).isBlock = true) ∨
      isCriticalLike profile = true ∧ input.report.solverDiagnostics ≠ []
  | .noPublicApiChangesWithoutApproval =>
    ∃ change ∈ input.publicApiChanges, hasAnyApproval input.approvals change.scope = false
  | .proofSufficiencyGate maxAssumedRatio =>
    input.report.summaryCounts.total ≠ 0 ∧
      ratios.exceeds (input.report.summaryCounts.total - input.report.summaryCounts.verified)
        input.report.summaryCounts.total maxAssumedRatio = true

theorem violations_failIfAny (violations : List PolicyViolation) :
    (failIfAny violations).violations = violations := by
  unfold failIfAny
  split <;> simp_all [PolicyDecision.violations]

theorem gateViolation_eq_none_iff {profile : String} {approvals : List ApprovalRecord} :
    gateViolation profile approvals entry = none ↔
      (gateEntry profile approvals entry).isBlock = false := by
  unfold gateViolation
  cases gateEntry profile approvals entry <;> simp [GateResult.isBlock]

open PolicyEngine

theorem evaluateRule_violations_ne_nil_iff {rule : PolicyRule F} :
    (evaluateRule ratios input rule).violations ≠ [] ↔ rule.Rejects ratios input := by
  cases rule with
  | noUnsafe =>
    simp [evaluateRule, evalNoUnsafe, violations_failIfAny, PolicyRule.Rejects]
  | noUnverifiedPublicApi =>
    simp [evaluateRule, evalNoUnverifiedPublicApi, violations_failIfAny,
      PolicyRule.Rejects]
  | requireApproval =>
    simp only [evaluateRule, evalRequireApproval, PolicyRule.Rejects]
    split <;> simp [PolicyDecision.violations]
  | profileGate profile =>
    simp only [evaluateRule, evalProfileGate, PolicyDecision.violations_ofFound,
      PolicyRule.Rejects, ne_eq, append_eq_nil_iff, filterMap_eq_nil_iff, gateViolation_eq_none_iff]
    by_cases hcritical : isCriticalLike profile = true <;>
      simp [or_iff_not_imp_left]
  | noPublicApiChangesWithoutApproval =>
    simp [evaluateRule, evalNoPublicApiChanges, violations_failIfAny,
      PolicyRule.Rejects]
  | proofSufficiencyGate maxAssumedRatio =>
    simp only [evaluateRule, evalProofSufficiency, PolicyRule.Rejects]
    split_ifs <;> simp_all [PolicyDecision.violations]

/-- The engine fails exactly if some rule rejects the findings. -/
theorem evaluate_isFailed_iff :
    (evaluate ratios input).isFailed = true ↔
      ∃ rule ∈ input.rules, rule.Rejects ratios input := by
  rw [evaluate, PolicyDecision.isFailed_ofFound]
  simp [← evaluateRule_violations_ne_nil_iff]

/-- A gate for any profile rejects a failure. -/
theorem rejects_of_failed (profile : String) (hmem : entry ∈ input.report.entries)
    (hfailed : entry.state = .failed) : (PolicyRule.profileGate profile).Rejects ratios input :=
  .inl ⟨entry, hmem, by simp [gateEntry, profileGateResult, hfailed, GateResult.isBlock]⟩

end Ail.Verify
