import Ail.Lib.Canonical
import Ail.Lib.Pick
import Ail.Package.Versioning

/-!
# The dependency resolver

`resolver.rs`: `resolve` picks for one declared dependency the highest
registered version its constraint accepts and then applies the policies;
`resolveAll` does so for a list of dependencies, one by one, and fails
when two of them picked different versions of a package.
`conflictDiagnostics` looks for conflicts beforehand.

An ordered set is a sorted list, an ordered map the list of its entries.
Of a manifest only the fields the resolver and the verifier read are kept.
-/

namespace Ail.Package

open Ail.Core Lib

/-! ## Packages -/

inductive TrustLevel where
  | unsafeCode
  | unverified
  | assumed
  | verified
  deriving DecidableEq, Ord

def TrustLevel.display : TrustLevel → String
  | .unsafeCode => "unsafe"
  | .unverified => "unverified"
  | .assumed => "assumed"
  | .verified => "verified"

def TrustLevel.satisfies (level minimum : TrustLevel) : Bool := (compare minimum level).isLE

inductive DeploymentProfile where
  | draft
  | dev
  | test
  | staging
  | prod
  | critical

inductive TrustGateVerdict where
  | allow
  | warn
  | deny
  deriving DecidableEq

def TrustGate.evaluate (trustLevel : TrustLevel) (profile : DeploymentProfile) : TrustGateVerdict :=
  match profile, trustLevel with
  | _, .verified => .allow
  | _, .unsafeCode => .deny
  | .critical, .assumed => .warn
  | _, .assumed => .allow
  | .draft, .unverified => .warn
  | .dev, .unverified => .warn
  | .test, .unverified => .warn
  | .staging, .unverified => .deny
  | .prod, .unverified => .deny
  | .critical, .unverified => .deny

structure Provenance where
  url : Option String := none
  sourceRepository : Option String := none
  deriving DecidableEq

structure ImportDeclaration where
  sourcePackage : String
  versionConstraint : Option String := none
  deriving DecidableEq

inductive ExportStability where
  | stable
  | beta
  | experimental
  | deprecated
  deriving DecidableEq

structure ExportDeclaration where
  name : String
  stability : ExportStability
  deriving DecidableEq

inductive AssumptionState where
  | proposed
  | approved
  | active
  | expired
  | revoked
  | failedReview
  deriving DecidableEq

/-- The `{:?}` rendering of a state. -/
def AssumptionState.debug : AssumptionState → String
  | .proposed => "Proposed"
  | .approved => "Approved"
  | .active => "Active"
  | .expired => "Expired"
  | .revoked => "Revoked"
  | .failedReview => "FailedReview"

structure PackageAssumption where
  id : String
  claim : String
  boundary : String
  owner : String
  state : AssumptionState
  deriving DecidableEq

structure PackageManifest where
  name : String
  version : String
  trustLevel : TrustLevel
  requiredCapabilities : List String := []
  /-- The names of the exported handlers. -/
  handlers : List String := []
  imports : List ImportDeclaration := []
  exports : List ExportDeclaration := []
  assumptions : List PackageAssumption := []
  boundaries : List String := []
  license : Option String := none
  provenance : Option Provenance := none
  graphSchema : Option UInt32 := none
  coreIrSchema : Option UInt32 := none
  deriving DecidableEq

/-- The manifests in the order they were registered. -/
structure PackageRegistry where
  manifests : List PackageManifest

structure YankRecord where
  name : String
  version : String
  reason : String

inductive AdvisorySeverity where
  | low
  | medium
  | high
  | critical
  deriving DecidableEq, Ord

structure SecurityAdvisory where
  id : String
  package : String
  affectedConstraint : String
  severity : AdvisorySeverity
  reason : String

structure DependencySpec where
  name : String
  versionConstraint : String
  minTrust : TrustLevel
  profile : Option DeploymentProfile := none
  allowedLicenses : List String := []
  deniedCapabilities : List String := []
  deniedHandlers : List String := []
  minGraphSchema : Option UInt32 := none
  minCoreIrSchema : Option UInt32 := none

inductive ResolverError where
  | invalidVersionRequirement (name : String) (issue : VersionRequirementIssue)
  | notFound (name versionConstraint : String)
  | yanked (reason : String)
  | advisory (id : String) (severity : AdvisorySeverity)
  | trustViolation (actual required : TrustLevel)
  | profilePolicyViolation (profile : DeploymentProfile) (trustLevel : TrustLevel)
  | licenseViolation (actualLicense : Option String)
  | capabilityConflict (capability : String)
  | handlerConflict (handler : String)
  | schemaIncompatible (reason : String)
  | conflictingVersion (name v1 v2 : String)

section

variable {Version Req : Type} [LinearOrder Version] (semver : Semver Version Req)

/-! ## Advisories -/

namespace AdvisoryChecker

def compareMatches (left right : SecurityAdvisory) : Ordering :=
  (compare right.severity left.severity).then
    ((compare left.id right.id).then
      ((compare left.package right.package).then
        ((compare left.affectedConstraint right.affectedConstraint).then
          (compare left.reason right.reason))))

omit [LinearOrder Version] in
def versionMatches (version constraint : String) : Bool :=
  if !(["<", ">", "^", "~", "=", "*"].any (startsWith constraint)) then constraint == version
  else match semver.parseVersion version with
    | none => constraint == version
    | some ver =>
      match semver.parseReq constraint with
      | some req => semver.accepts req ver
      | none => constraint == version

omit [LinearOrder Version] in
def firstMatch (name version : String) (advisories : List SecurityAdvisory) :
    Option SecurityAdvisory :=
  ((advisories.filter fun adv =>
      adv.package = name ∧ versionMatches semver version adv.affectedConstraint).insertionSort
    fun a b => (compareMatches a b).isLE).head?

end AdvisoryChecker

/-! ## Resolving one dependency -/

/-- The version of a manifest of the package, if the requirement accepts
it. -/
def candidate (name : String) (requirement : Req) (manifest : PackageManifest) :
    Option (PackageManifest × Version) :=
  if manifest.name ≠ name then none
  else match semver.parseVersion manifest.version with
    | none => none
    | some version => if semver.accepts requirement version then some (manifest, version) else none

def candidates (name : String) (requirement : Req) (registry : PackageRegistry) :
    List (PackageManifest × Version) :=
  registry.manifests.filterMap (candidate semver name requirement)

def findBestMatch (name versionConstraint : String) (registry : PackageRegistry) :
    Except VersionRequirementIssue (Option PackageManifest) := do
  let requirement ← parseRequirement semver versionConstraint
  return (pick (fun next best => decide (best.2 < next.2))
    (candidates semver name requirement registry)).map (·.1)

/-- The checks that follow the choice of a version, in their order. -/
def checkPolicies (spec : DependencySpec) (manifest : PackageManifest)
    (advisories : List SecurityAdvisory) (yanks : List YankRecord) : Except ResolverError Unit :=
  match yanks.find? fun yank => yank.name = spec.name ∧ yank.version = manifest.version with
  | some yank => .error (.yanked yank.reason)
  | none =>
  match AdvisoryChecker.firstMatch semver spec.name manifest.version advisories with
  | some adv => .error (.advisory adv.id adv.severity)
  | none =>
  if !manifest.trustLevel.satisfies spec.minTrust then
    .error (.trustViolation manifest.trustLevel spec.minTrust)
  else
  match spec.profile.filter fun profile => TrustGate.evaluate manifest.trustLevel profile =
    .deny with
  | some profile => .error (.profilePolicyViolation profile manifest.trustLevel)
  | none =>
  match spec.minGraphSchema.filter fun required => manifest.graphSchema.getD 0 < required with
  | some required => .error (.schemaIncompatible ("graph_schema " ++
      toString (manifest.graphSchema.getD 0) ++ " < required " ++ toString required))
  | none =>
  match spec.minCoreIrSchema.filter fun required => manifest.coreIrSchema.getD 0 < required with
  | some required => .error (.schemaIncompatible ("core_ir_schema " ++
      toString (manifest.coreIrSchema.getD 0) ++ " < required " ++ toString required))
  | none =>
  if !spec.allowedLicenses.isEmpty ∧ ¬manifest.license.any (· ∈ spec.allowedLicenses) then
    .error (.licenseViolation manifest.license)
  else
  match spec.deniedCapabilities.find? (· ∈ manifest.requiredCapabilities) with
  | some capability => .error (.capabilityConflict capability)
  | none =>
  match spec.deniedHandlers.find? (· ∈ manifest.handlers) with
  | some handler => .error (.handlerConflict handler)
  | none => .ok ()

def resolve (spec : DependencySpec) (registry : PackageRegistry)
    (advisories : List SecurityAdvisory) (yanks : List YankRecord) :
    Except ResolverError PackageManifest :=
  match findBestMatch semver spec.name spec.versionConstraint registry with
  | .error issue => .error (.invalidVersionRequirement spec.name issue)
  | .ok none => .error (.notFound spec.name spec.versionConstraint)
  | .ok (some manifest) => do
    checkPolicies semver spec manifest advisories yanks
    return manifest

/-! ## Resolving all dependencies -/

def canonicalConflictVersions (left right : String) : String × String :=
  match semver.parseVersion left, semver.parseVersion right with
  | some leftVer, some rightVer => if rightVer < leftVer then (right, left) else (left, right)
  | _, _ => if right < left then (right, left) else (left, right)

/-- One round of `resolve_all`: the package must not have been resolved to
another version. -/
def resolveStep (registry : PackageRegistry) (advisories : List SecurityAdvisory)
    (yanks : List YankRecord) (resolved : List PackageManifest) (spec : DependencySpec) :
    Except ResolverError (List PackageManifest) := do
  let manifest ← resolve semver spec registry advisories yanks
  match resolved.find? (·.name = manifest.name) with
  | some previous =>
    if previous.version ≠ manifest.version then
      let versions := canonicalConflictVersions semver previous.version manifest.version
      .error (.conflictingVersion manifest.name versions.1 versions.2)
    else .ok resolved
  | none => .ok (resolved ++ [manifest])

/-- The resolved packages in the order of their names. -/
def resolveAll (specs : List DependencySpec) (registry : PackageRegistry)
    (advisories : List SecurityAdvisory) (yanks : List YankRecord) :
    Except ResolverError (List PackageManifest) := do
  let resolved ← specs.foldlM (resolveStep semver registry advisories yanks) []
  return resolved.insertionSort fun a b => (compare a.name b.name).isLE

end

end Ail.Package
