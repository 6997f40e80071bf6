import Ail.Verify.Checkers
import Ail.Verify.PackageTrust
import Ail.Verify.Stages
import Ail.Verify.TypeChecker

/-!
# The verification pipeline

`VerificationPipeline::run_with_changeset`. Stages 1 to 16 look at the
changeset, the graph and the packages; the policy decides on what they
found; stages 18 to 22 add entries after the decision.

A run can panic, in the scans of bodies: `runWithChangeset_ok_iff` says
when it returns a report.

Of the report the parts the policy reads and its decision are kept. The
reader of changesets and what is taken from other crates are parameters.
-/

namespace Ail.Verify

open Ail.Core Lib Change Package

variable {F : Type}

/-- What the pipeline takes from elsewhere. -/
structure PipelineEnv (F : Type) where
  std : TextStd
  order : HashOrder
  ratios : Ratios F
  /-- `VersionReq::parse` succeeds. -/
  validReq : String → Bool
  /-- `parse_changeset` and `canonicalize_parsed`. -/
  readChangeset : String → Except String CanonicalChangeSet
  /-- `{:?}` of a decision. -/
  debugDecision : PolicyDecision → String

/-- `PipelineContext`, without what is only copied into the report. -/
structure PipelineContext (F : Type) where
  graph : SemanticGraph
  manifests : List PackageManifest := []
  profile : String
  solver : Solver
  approvals : List ApprovalRecord := []
  rules : List (PolicyRule F) := []
  publicApiChanges : List PublicApiChange := []
  artifacts : List ArtifactEntry := []
  manifestCaps : List String := []
  artifactManifestHash : Option String := none

structure PipelineReport extends Findings where
  policyDecision : PolicyDecision

/-! ## Before the decision -/

/-- Stages 1 and 2: the changeset, if there is one that can be read, and
the entries on it. -/
def readStages (env : PipelineEnv F) (text : Option String) :
    List VerificationEntry × Option CanonicalChangeSet :=
  let unavailable := stageEntry "02-canonicalize-changeset" .unverified "changeset"
    (some "canonical change unavailable because parsing was skipped or failed")
  match text.map env.readChangeset with
  | none =>
    ([stageEntry "01-parse-changeset" .unverified "changeset"
        (some "no submitted ChangeSet text provided to pipeline"), unavailable], none)
  | some (.error err) =>
    ([stageEntry "01-parse-changeset" .failed "changeset" (some ("E_CHANGESET_PARSE: " ++ err)),
      unavailable], none)
  | some (.ok canonical) =>
    ([stageEntry "01-parse-changeset" .proven "changeset" none,
      stageEntry "02-canonicalize-changeset" .proven "changeset"
        (some (toString canonical.ops.length ++ " canonical ops"))], some canonical)

/-- The entry that a checker was executed. -/
def executed (claim scope evidence : String) : VerificationEntry :=
  stageEntry claim .proven scope (some evidence)

/-- The entries of stages 1 to 16, given those of the validator and of
the package checker. -/
def earlyEntries (env : PipelineEnv F) (ctx : PipelineContext F) (text : Option String)
    (base : Option SemanticGraph) (ledger : List ObligationLedgerEntry)
    (translation packages : List VerificationEntry) : List VerificationEntry :=
  let tables := env.std.toCharTables
  let (read, canonical) := readStages env text
  [read, validateOpSchemas tables canonical ctx.graph,
    resolveGraphReferences canonical ctx.graph, buildSemanticDiff base ctx.graph,
    [lowerCoreIr ctx.graph],
    [stageEntry "translation-validation" (VerificationReport.summary ⟨translation⟩)
      "translation_validation"
      (some ("profile '" ++ ctx.profile ++ "': translation validation executed"))],
    translation,
    [executed "07-type-check" "type-checker" "type checker executed"],
    (TypeChecker.check env.std ctx.graph).entries,
    [executed "08-effect-capability-check" "effect-checker" "effect/capability checker executed"],
    (EffectChecker.check ctx.graph).entries,
    [executed "09-generate-proof-obligations" "proof-obligations"
      (toString ledger.length ++ " obligations")],
    checkRefinements ctx.graph ctx.solver,
    [executed "11-check-contracts" "contracts" "contract checker executed"],
    (ContractChecker.check ctx.solver ctx.graph).entries,
    checkInvariants base ctx.graph,
    [executed "13-check-resource-lifecycle" "resources" "resource checker executed"],
    (ResourceChecker.check ctx.graph).entries,
    [executed "14-check-concurrency-safety" "concurrency" "concurrency checker executed"],
    (ConcurrencyChecker.check ctx.graph).entries,
    [executed "15-check-boundaries-ffi-trust" "boundaries" "boundary checker executed"],
    (BoundaryChecker.check ctx.graph).entries,
    [executed "16-check-package-trust-dependencies" "packages" "package trust checker executed"],
    packages, PackageTrustChecker.checkVersionConstraints env.validReq ctx.manifests,
    PackageTrustChecker.checkDeprecatedExports ctx.manifests].flatten

/-- `canonicalize_for_ci`, as far as the policy sees it. -/
def Findings.canonicalize (entries : List VerificationEntry)
    (solverDiagnostics : List SolverDiagnostic) : Findings :=
  { entries := entries.eraseDups
    summaryCounts := SummaryCounts.fromEntries entries.eraseDups
    solverDiagnostics := canonicalSolverDiagnostics solverDiagnostics }

namespace VerificationPipeline

/-- Stages 1 to 16. -/
def findings (env : PipelineEnv F) (ctx : PipelineContext F) (text : Option String)
    (base : Option SemanticGraph) : Except Panic Findings := do
  let translation ← TranslationValidator.check env.std.toCharTables ctx.graph ctx.profile
  let packages ← PackageTrustChecker.check ctx.manifests ctx.profile
  let ledger :=
    ProofObligationPipeline.runWithLedger env.std.toCharTables ctx.graph ctx.solver
  return Findings.canonicalize (earlyEntries env ctx text base ledger translation packages)
    (ledger.filterMap SolverDiagnostic.fromLedgerEntry)

/-! ## The decision -/

/-- The gates for another profile than the one that was asked for. -/
def mismatchedGates (ctx : PipelineContext F) : List String :=
  ctx.rules.filterMap fun
    | .profileGate profile => if profile ≠ ctx.profile then some profile else none
    | _ => none

def mismatchViolation (requested profile : String) : PolicyViolation :=
  { code := "VERIFY_PROFILE_RULE_MISMATCH", scope := "profile"
    message := "verification profile '" ++ requested ++ "' does not match policy gate profile '" ++
      profile ++ "'" }

/-- `enforce_profile_diagnostics`. -/
def enforceProfileDiagnostics (decision : PolicyDecision) (violations : List PolicyViolation) :
    PolicyDecision :=
  if violations = [] then decision
  else
    match decision with
    | .failed existing => .failed (existing ++ violations)
    | _ => .failed violations

def policyInput (ctx : PipelineContext F) (report : Findings) : PolicyInput F :=
  { report, rules := ctx.rules, approvals := ctx.approvals
    publicApiChanges := ctx.publicApiChanges }

/-- Stage 17. -/
def decision (env : PipelineEnv F) (ctx : PipelineContext F) (report : Findings) : PolicyDecision :=
  enforceProfileDiagnostics (PolicyEngine.evaluate env.ratios (policyInput ctx report))
    ((mismatchedGates ctx).map (mismatchViolation ctx.profile))

/-! ## After the decision -/

/-- The entries of stages 17 to 23, given that of stage 20. -/
def lateEntries (env : PipelineEnv F) (ctx : PipelineContext F) (decision : PolicyDecision)
    (ordering : VerificationEntry) : List VerificationEntry :=
  [[executed "17-check-policy-gates" "policy" ("policy decision: " ++ env.debugDecision decision)],
    checkApprovalRecords ctx.approvals, lowerAnf ctx.graph, [ordering],
    [validateManifest ctx.graph ctx.manifestCaps ctx.artifactManifestHash],
    [executed "22-codegen-consistency-check" "codegen" "codegen consistency checker executed"],
    (CodegenChecker.checkArtifacts ctx.artifacts).entries,
    if ctx.manifestCaps ≠ [] then
      (CodegenChecker.checkManifestConsistency ctx.graph ctx.manifestCaps).entries
    else [],
    [executed "23-emit-verification-report" "verification_report"
      "schema verification/1.0 emitted"]].flatten

def runWithChangeset (env : PipelineEnv F) (ctx : PipelineContext F) (text : Option String)
    (base : Option SemanticGraph) : Except Panic PipelineReport := do
  let report ← findings env ctx text base
  let ordering ← checkAnfOrdering env.std.toCharTables env.order ctx.graph
  let decided := decision env ctx report
  return { Findings.canonicalize (report.entries ++ lateEntries env ctx decided ordering)
             report.solverDiagnostics with
           policyDecision := decided }

def run (env : PipelineEnv F) (ctx : PipelineContext F) : Except Panic PipelineReport :=
  runWithChangeset env ctx none none

/-! ## When a run returns -/

variable {env : PipelineEnv F} {ctx : PipelineContext F} {text : Option String}
  {base : Option SemanticGraph}

theorem packageTrustChecker_ok (manifests : List PackageManifest) (profile : String) :
    ∃ entries, PackageTrustChecker.check manifests profile = .ok entries := by
  simp only [PackageTrustChecker.check, bind_eq_ok]
  obtain ⟨lists, hlists⟩ := exists_mapM_eq_ok_iff.2 fun manifest (_ : manifest ∈ manifests) =>
    PackageTrustChecker.checkOne_ok profile (minimumTrustForProfile profile) manifest
  exact ⟨_, lists, hlists, rfl⟩

theorem findings_ok_iff :
    (∃ report, findings env ctx text base = .ok report) ↔
      EffectsReadable ctx.graph ctx.profile := by
  rw [← @translationValidator_ok_iff env.std.toCharTables]
  simp only [findings, bind_eq_ok]
  constructor
  · rintro ⟨_, translation, htranslation, -⟩
    exact ⟨translation, htranslation⟩
  · rintro ⟨translation, htranslation⟩
    obtain ⟨packages, hpackages⟩ := packageTrustChecker_ok ctx.manifests ctx.profile
    exact ⟨_, translation, htranslation, packages, hpackages, rfl⟩

/-- A run is made of its findings and the entry of stage 20. -/
theorem runWithChangeset_eq_ok_iff {result : PipelineReport} :
    runWithChangeset env ctx text base = .ok result ↔
      ∃ report ordering, findings env ctx text base = .ok report ∧
        checkAnfOrdering env.std.toCharTables env.order ctx.graph = .ok ordering ∧
        result = { Findings.canonicalize
            (report.entries ++ lateEntries env ctx (decision env ctx report) ordering)
            report.solverDiagnostics with
          policyDecision := decision env ctx report } := by
  simp only [runWithChangeset, bind_eq_ok, pure, Except.pure, Except.ok.injEq]
  constructor
  · rintro ⟨report, hreport, ordering, hordering, rfl⟩
    exact ⟨report, ordering, hreport, hordering, rfl⟩
  · rintro ⟨report, ordering, hreport, hordering, rfl⟩
    exact ⟨report, hreport, ordering, hordering, rfl⟩

theorem runWithChangeset_ok_iff :
    (∃ result, runWithChangeset env ctx text base = .ok result) ↔
      EffectsReadable ctx.graph ctx.profile ∧
        BodiesReadable env.std.toCharTables env.order ctx.graph.nodes := by
  rw [← @findings_ok_iff F env ctx text base, ← checkAnfOrderingOf_ok_iff]
  simp only [runWithChangeset_eq_ok_iff]
  constructor
  · rintro ⟨_, report, ordering, hreport, hordering, -⟩
    exact ⟨⟨report, hreport⟩, ⟨ordering, hordering⟩⟩
  · rintro ⟨⟨report, hreport⟩, ⟨ordering, hordering⟩⟩
    exact ⟨_, report, ordering, hreport, hordering, rfl⟩

/-- Verification returns a report exactly if the bodies can be scanned:
for the effects they use, where the profile asks for it, and for the
order of their calls, up to the first violation. -/
theorem run_returns_iff :
    (∃ result, run env ctx = .ok result) ↔
      (isProdOrStricter ctx.profile = true →
        ∀ node ∈ ctx.graph.nodes, node.kind = .function → ∀ body, node.bodyExpr = some body →
          ∀ keyword ∈ effectKeywords, Enclosed keyword.toList body.toList) ∧
      ∀ before node after, ctx.graph.nodes = before ++ node :: after →
        ∀ body, node.bodyExpr = some body → ¬ IsAscii body.toList →
          ∃ earlier ∈ before, Disordered env.std.toCharTables env.order earlier :=
  runWithChangeset_ok_iff

end VerificationPipeline

/-! ## A body with a letter outside ASCII -/

/-- No changeset can be read, every requirement is valid, ratios are
natural numbers of percent. -/
def PipelineEnv.plain : PipelineEnv Nat :=
  { std := .ascii
    order := .insertion
    ratios := ⟨fun part total bound => bound * total < 100 * part, fun _ _ => "", fun _ => ""⟩
    validReq := fun _ => true
    readChangeset := fun _ => .error "no reader"
    debugDecision := fun _ => "" }

/-- A function that returns the text `é`. -/
def accented : SemanticGraph :=
  ⟨[{ id := ⟨0⟩, kind := .function, name := "greet", returnType := some "String"
      bodyExpr := some "\"é\"" }], []⟩

def accentedRun (profile : String) : PipelineContext Nat :=
  { graph := accented, profile, solver := simpleSolver .ascii }

/-- Both scans panic at the second byte of the letter. -/
theorem run_panics_on_accent :
    VerificationPipeline.run .plain (accentedRun "dev") = .error (.notCharBoundary 2) ∧
      VerificationPipeline.run .plain (accentedRun "prod") = .error (.notCharBoundary 2) := by
  exact ⟨rfl, rfl⟩

end Ail.Verify
