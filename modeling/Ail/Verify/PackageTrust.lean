import Ail.Package.Resolver
import Ail.Verify.Report

/-!
# The package trust checker

`PackageTrustChecker` compares the trust level of each package with what
the profile asks for, and looks at the version constraints of its imports
and at its deprecated exports.

The last match on the trust level has an arm that its author marked as
unreachable. It is a panic here, and `checkOne_ok` says that it is never
met.
-/

namespace Ail.Verify

open Ail.Core Package

variable (profile : String)

def minimumTrustForProfile : Package.TrustLevel :=
  if profile ∈ ["prod", "staging", "critical"] then .assumed else .unverified

def requiresAssumptionApproval : Bool := profile ∈ ["staging", "prod", "critical"]

namespace PackageTrustChecker

variable (manifest : PackageManifest)

def packageScope : String :=
  "package:" ++ manifest.name ++ "@" ++ manifest.version

def trustClaim : String := "package-trust[" ++ profile ++ "]"

/-- What is wrong with one assumption of an assumed package. -/
def assumptionIssue (assumption : PackageAssumption) : Option (String × String) :=
  if isBlank assumption.id || isBlank assumption.claim || isBlank assumption.boundary ||
      isBlank assumption.owner then
    some ("E_PACKAGE_ASSUMPTION_INVALID: assumption must declare id, claim, boundary, and owner",
      "complete_package_assumption_metadata")
  else if assumption.boundary ∉ manifest.boundaries then
    some ("E_PACKAGE_ASSUMPTION_FLOATING: assumption '" ++ assumption.id ++
      "' references undeclared boundary '" ++ assumption.boundary ++ "'",
      "declare_assumption_boundary")
  else if assumption.state ∈ [AssumptionState.expired, .revoked, .failedReview] then
    some ("E_PACKAGE_ASSUMPTION_INACTIVE: assumption '" ++ assumption.id ++ "' is " ++
      assumption.state.debug, "renew_or_replace_package_assumption")
  else none

/-- `check_assumed_package_metadata`. -/
def checkAssumedPackageMetadata (profile : String) : Option VerificationEntry :=
  let entry (state : VerificationState) (evidence repair : String) : VerificationEntry :=
    { claim := trustClaim profile, state, scope := packageScope manifest
      evidence := some evidence, blocking := true, repairOptions := [repair] }
  if manifest.assumptions = [] then
    some (entry .unverified
      "E_PACKAGE_ASSUMPTION_MISSING: assumed package must declare boundary-scoped assumptions"
      "add_package_assumption_with_boundary")
  else if manifest.boundaries = [] then
    some (entry .unverified
      "E_PACKAGE_BOUNDARY_MISSING: assumed package must declare trust boundaries"
      "add_package_boundary")
  else
    (manifest.assumptions.findSome? (assumptionIssue manifest)).map fun (evidence, repair) =>
      entry .failed evidence repair

/-- The approvals that the consumer of an assumed package has to give. -/
def approvalEntries (profile : String) : List VerificationEntry :=
  (manifest.assumptions.filter (·.state = .active)).map fun assumption =>
    makeEntry ("package-assumption-approval[" ++ profile ++ "]") .assumed
      (packageScope manifest ++ "#assumption:" ++ assumption.id)
      (some ("E_PACKAGE_ASSUMPTION_APPROVAL_REQUIRED: active package assumption '" ++
        assumption.id ++ "' requires consumer approval"))
      ["add_consumer_assumption_approval"]

/-- The state of a package whose level is high enough. -/
def stateOfTrust : Package.TrustLevel → Except Panic VerificationState
  | .verified => .ok .proven
  | .assumed => .ok .assumed
  | .unverified => .ok .unverified
  | .unsafeCode => .error .unreachable

/-- The comparison with the profile's minimum. -/
def checkMinimum (profile : String) (minimum : Package.TrustLevel) :
    Except Panic (List VerificationEntry) :=
  let trust := manifest.trustLevel
  if trust.satisfies minimum then do
    let state ← stateOfTrust trust
    let evidence := if trust = .assumed then
        some ("package assumptions are boundary-scoped: " ++
          ", ".intercalate (manifest.assumptions.map (·.id)))
      else none
    return [stageEntry (trustClaim profile) state (packageScope manifest) evidence]
  else
    .ok [{ claim := trustClaim profile, state := .unverified, scope := packageScope manifest
           evidence := some ("package trust level `" ++ trust.display ++
             "` does not meet profile minimum `" ++ minimum.display ++ "`")
           blocking := true
           repairOptions := ["raise_package_trust_or_select_lower_profile"] }]

variable (minimum : Package.TrustLevel)

def checkOne (manifest : PackageManifest) : Except Panic (List VerificationEntry) :=
  match manifest.trustLevel with
  | .unsafeCode =>
    .ok [stageEntry (trustClaim profile) .unsafe_ (packageScope manifest)
      (some "package has TrustLevel::Unsafe; explicit approval required")]
  | .assumed =>
    match checkAssumedPackageMetadata manifest profile with
    | some entry => .ok [entry]
    | none =>
      if requiresAssumptionApproval profile && approvalEntries manifest profile ≠ [] then
        .ok (approvalEntries manifest profile)
      else checkMinimum manifest profile minimum
  | _ => checkMinimum manifest profile minimum

variable (manifests : List PackageManifest)

def check (profile : String) : Except Panic (List VerificationEntry) := do
  return (← manifests.mapM (checkOne profile (minimumTrustForProfile profile))).flatten

/-- `check_version_constraints`, for a given test of a constraint. -/
def checkVersionConstraints (validReq : String → Bool) (manifests : List PackageManifest) :
    List VerificationEntry :=
  manifests.flatMap fun manifest => manifest.imports.map fun declaration =>
    let scope := "import:" ++ declaration.sourcePackage ++ "@" ++ manifest.name ++ "@" ++
      manifest.version
    match declaration.versionConstraint with
    | none => stageEntry "version-constraint" .proven scope none
    | some constraint =>
      if validReq constraint then stageEntry "version-constraint" .proven scope none
      else
        { claim := "version-constraint", state := .unverified, scope
          evidence := some ("E_VERSION_CONSTRAINT_INVALID: " ++ constraint), blocking := true }

def checkDeprecatedExports : List VerificationEntry :=
  manifests.flatMap fun manifest =>
    (manifest.exports.filter (·.stability = .deprecated)).map fun declaration =>
      stageEntry "deprecated-api" .assumed
        ("export:" ++ declaration.name ++ "@" ++ manifest.name ++ "@" ++ manifest.version)
        (some ("E_DEPRECATED_API: " ++ declaration.name))

theorem checkMinimum_ok {manifest : PackageManifest} (htrust : manifest.trustLevel ≠ .unsafeCode) :
    ∃ entries, checkMinimum manifest profile minimum = .ok entries := by
  unfold checkMinimum
  simp only
  split
  · cases hlevel : manifest.trustLevel with
    | unsafeCode => exact absurd hlevel htrust
    | unverified => exact ⟨_, rfl⟩
    | assumed => exact ⟨_, rfl⟩
    | verified => exact ⟨_, rfl⟩
  · exact ⟨_, rfl⟩

theorem checkOne_ok (manifest : PackageManifest) :
    ∃ entries, checkOne profile minimum manifest = .ok entries := by
  unfold checkOne
  split
  next => exact ⟨_, rfl⟩
  next hlevel =>
    split
    next => exact ⟨_, rfl⟩
    next =>
      split
      · exact ⟨_, rfl⟩
      · exact checkMinimum_ok profile minimum (by simp [hlevel])
  next hnot _ => exact checkMinimum_ok profile minimum hnot

end PackageTrustChecker

end Ail.Verify
