import Ail.Package.Resolver

/-!
# Conflict diagnostics

What `conflict_diagnostics` (`resolver.rs`) reports before anything is
resolved: packages declared twice, constraints nothing satisfies,
constraints no single version satisfies, import cycles, and versions
with several sources. Sources are compared but not shown.

The walk over the imports and the search for cycles recurse with a bound
that neither reaches: a package is entered once in the walk, and at most
once on a path of the search.
-/

namespace Ail.Package

open Ail.Core Lib

instance lawfulBEqCoordinate : LawfulBEq (String × String) := inferInstance

inductive ResolverDiagnosticKind where
  | duplicatePackage
  | incompatibleVersionRange
  | missingPackage
  | invalidVersionRequirement
  | missingVersion
  | dependencyCycle
  | conflictingSource
  deriving DecidableEq, Ord

variable (specs : List DependencySpec) (package : String)

structure ResolverDiagnostic where
  kind : ResolverDiagnosticKind
  package : String
  version : Option String := none
  constraints : List String := []
  versions : List String := []
  relatedPackages : List String := []
  message : String
  redacted : Bool := true

namespace ResolverDiagnostic

def duplicatePackage (constraints : List String) : ResolverDiagnostic :=
  { kind := .duplicatePackage, package, constraints
    message := "package '" ++ package ++ "' is declared multiple times with constraints [" ++
      ", ".intercalate constraints ++ "]" }

def incompatibleVersionRange (constraints versions : List String) : ResolverDiagnostic :=
  { kind := .incompatibleVersionRange, package, constraints, versions
    message := "package '" ++ package ++ "' constraints [" ++ ", ".intercalate constraints ++
      "] cannot be satisfied by one registered version" }

def missingPackage (constraint : String) : ResolverDiagnostic :=
  { kind := .missingPackage, package, constraints := [constraint]
    message := "package '" ++ package ++ "' is not present in the registry for constraint '" ++
      constraint ++ "'" }

def invalidVersionRequirement (issue : VersionRequirementIssue) : ResolverDiagnostic :=
  { kind := .invalidVersionRequirement, package
    relatedPackages := ["shape=" ++ issue.shape.display ++ ";char_len=" ++
      toString issue.charLen ++ ";category=" ++ issue.category]
    message := "package '" ++ package ++ "' has invalid version requirement shape '" ++
      issue.shape.display ++ "' (" ++ issue.code.display ++ ")" }

def missingVersion (constraint : String) (versions : List String) : ResolverDiagnostic :=
  { kind := .missingVersion, package, constraints := [constraint], versions
    message := "package '" ++ package ++ "' has no registered version matching constraint '" ++
      constraint ++ "'" }

def dependencyCycle (relatedPackages : List String) : ResolverDiagnostic :=
  { kind := .dependencyCycle, package, relatedPackages
    message := "package dependency cycle detected: " ++ " -> ".intercalate relatedPackages }

def conflictingSource (version : String) (sourceCount : Nat) : ResolverDiagnostic :=
  { kind := .conflictingSource, package, version := some version, versions := [version]
    message := "package '" ++ package ++ "' version '" ++ version ++ "' has " ++
      toString sourceCount ++ " distinct source descriptors (redacted)" }

/-- The order of `diagnostic_sort_key`. -/
def compareKeys (left right : ResolverDiagnostic) : Ordering :=
  (compare left.package right.package).then
    ((compare left.kind right.kind).then
      ((compare left.version right.version).then
        ((compare left.constraints right.constraints).then
          ((compare left.versions right.versions).then
            (compare left.relatedPackages right.relatedPackages)))))

end ResolverDiagnostic

section

variable {Version Req : Type} [LinearOrder Version] (semver : Semver Version Req)

/-! ## Versions -/

def versionMatchesConstraint (version constraint : String) : Bool :=
  match semver.parseVersion version, parseRequirement semver constraint with
  | some parsed, .ok requirement => semver.accepts requirement parsed
  | _, _ => false

def compareVersions (left right : String) : Ordering :=
  match semver.parseVersion left, semver.parseVersion right with
  | some leftVersion, some rightVersion => compare leftVersion rightVersion
  | _, _ => compare left right

/-- `sort_by`, for as many versions as it sorts by insertion. -/
def canonicalVersions (versions : List String) : List String :=
  versions.insertionSort fun a b => (compareVersions semver a b).isLE

def registryVersionsFor (package : String) (registry : PackageRegistry) : List String :=
  canonicalVersions semver
    (orderedSet ((registry.manifests.filter (·.name = package)).map (·.version)))

/-! ## Declarations -/

/-- The declarations by package, in the order of the names. -/
def specsByPackage : List (String × List DependencySpec) :=
  (orderedSet (specs.map (·.name))).map fun name => (name, specs.filter (·.name = name))

def constraintsOf : List String :=
  orderedSet (specs.map (·.versionConstraint))

def duplicatePackageDiagnostics : List ResolverDiagnostic :=
  ((specsByPackage specs).filter fun entry => 1 < entry.2.length).map fun entry =>
    .duplicatePackage entry.1 (constraintsOf entry.2)

/-- What is wrong with one constraint for one package. -/
def missingDiagnostic (registry : PackageRegistry) (name constraint : String) :
    Option ResolverDiagnostic :=
  let versions := registryVersionsFor semver name registry
  match parseRequirement semver constraint with
  | .error issue => some (.invalidVersionRequirement name issue)
  | .ok _ =>
    if versions.isEmpty then some (.missingPackage name constraint)
    else if versions.any (versionMatchesConstraint semver · constraint) then none
    else some (.missingVersion name constraint versions)

/-- The loop over the declarations, with the pairs it has seen. -/
def missingDiagnostics (registry : PackageRegistry) :
    List (String × String) → List DependencySpec → List ResolverDiagnostic
  | _, [] => []
  | emitted, spec :: rest =>
    let key := (spec.name, spec.versionConstraint)
    if key ∈ emitted then missingDiagnostics registry emitted rest
    else (missingDiagnostic semver registry spec.name spec.versionConstraint).toList ++
      missingDiagnostics registry (key :: emitted) rest

/-- Whether the constraints on a package can be read but not met at once. -/
def incompatibleRange (registry : PackageRegistry) (package : String)
    (specs : List DependencySpec) : Option ResolverDiagnostic :=
  let versions := registryVersionsFor semver package registry
  let constraints := constraintsOf specs
  if specs.length ≤ 1 ∨ versions.isEmpty then none
  else if constraints.any fun constraint =>
      (parseRequirement semver constraint).toOption.isNone then
    none
  else if versions.any fun version => constraints.all (versionMatchesConstraint semver version) then
    none
  else some (.incompatibleVersionRange package constraints versions)

def incompatibleRangeDiagnostics (registry : PackageRegistry) (specs : List DependencySpec) :
    List ResolverDiagnostic :=
  (specsByPackage specs).filterMap fun entry => incompatibleRange semver registry entry.1 entry.2

end

/-! ## Imports -/

variable (registry : PackageRegistry)

/-- The registered packages the manifests of a package import. -/
def importsOf (package : String) : List String :=
  orderedSet ((((registry.manifests.filter (·.name = package)).flatMap (·.imports)).map
    (·.sourcePackage)).filter (· ∈ registry.manifests.map (·.name)))

/-- The imports of every package that can be reached from the pending
ones, the last of which is looked at first. -/
def walkImports (registry : PackageRegistry) :
    Nat → List (String × List String) → List String → List (String × List String)
  | 0, graph, _ => graph
  | _, graph, [] => graph
  | fuel + 1, graph, package :: pending =>
    if package ∈ graph.map (·.1) then walkImports registry fuel graph pending
    else
      let imports := importsOf registry package
      walkImports registry fuel (graph ++ [(package, imports)])
        ((imports.filter (· ∉ graph.map (·.1))).reverse ++ pending)

def dependencyGraphFor (roots : List String) (registry : PackageRegistry) :
    List (String × List String) :=
  (walkImports registry (roots.length + (registry.manifests.flatMap (·.imports)).length + 1) []
    (orderedSet roots).reverse).insertionSort fun a b => (compare a.1 b.1).isLE

def diagnosticPackageScope : List String :=
  (dependencyGraphFor ((specs.map (·.name)).filter (· ∈ registry.manifests.map (·.name)))
    registry).map (·.1)

/-- The cycle read from its least name on, which is repeated at the end. -/
def normalizedCycle (cycle : List String) : List String :=
  match pick (fun next best => (compare next best).isLT) cycle with
  | none => []
  | some least =>
    cycle.dropWhile (· ≠ least) ++ cycle.takeWhile (· ≠ least) ++ [least]

/-- The search below one package. It carries the cycles found so far. -/
def visitCycles (graph : List (String × List String)) :
    Nat → String → List String → List (List String) → List (List String)
  | 0, _, _, found => found
  | fuel + 1, package, path, found =>
    if package ∈ path then
      let cycle := normalizedCycle (path.dropWhile (· ≠ package))
      if cycle ∈ found then found else found ++ [cycle]
    else
      (((graph.find? (·.1 = package)).map (·.2)).getD []).foldl
        (fun found next => visitCycles graph fuel next (path ++ [package]) found) found

def cycleDiagnostics : List ResolverDiagnostic :=
  let graph := dependencyGraphFor (diagnosticPackageScope specs registry) registry
  (graph.foldl (fun found root => visitCycles graph (graph.length + 2) root.1 [] found) []).map
    fun cycle => .dependencyCycle (cycle.head?.getD "") cycle

/-! ## Sources -/

/-- What the source descriptor is printed from. -/
def provenanceSource (manifest : PackageManifest) : Option (Option String × Option String) :=
  (manifest.provenance.filter fun provenance =>
    provenance.sourceRepository.isSome || provenance.url.isSome).map
      fun provenance => (provenance.sourceRepository, provenance.url)

def conflictingSourceDiagnostics : List ResolverDiagnostic :=
  let inScope := registry.manifests.filter (·.name ∈ diagnosticPackageScope specs registry)
  let coordinates := (inScope.filter (provenanceSource · |>.isSome)).map
    fun m => (m.name, m.version)
  (coordinates.dedup.insertionSort fun a b =>
      ((compare a.1 b.1).then (compare a.2 b.2)).isLE).filterMap fun coordinate =>
    let sources := ((inScope.filter fun m => (m.name, m.version) = coordinate).filterMap
      provenanceSource).dedup
    if 1 < sources.length then
      some (.conflictingSource coordinate.1 coordinate.2 sources.length)
    else none

/-! ## The report -/

def conflictDiagnostics {Version Req : Type} [LinearOrder Version] (semver : Semver Version Req)
    (specs : List DependencySpec) (registry : PackageRegistry) : List ResolverDiagnostic :=
  (duplicatePackageDiagnostics specs ++ missingDiagnostics semver registry [] specs ++
    incompatibleRangeDiagnostics semver registry specs ++ cycleDiagnostics specs registry ++
    conflictingSourceDiagnostics specs registry).insertionSort fun a b =>
      (ResolverDiagnostic.compareKeys a b).isLE

end Ail.Package
