import Ail.Lib.Collect
import Ail.Package.Diagnostics

/-!
# Preflight against resolution

The preflight asks whether some registered version of a package meets
all constraints on it; the resolver takes for every constraint the
highest version that meets this one and only then compares. A clean
preflight therefore does not mean that resolution succeeds. It does
exactly if the highest version any one constraint accepts is accepted by
the other constraints on the package as well.
-/

namespace Ail.Package

open Ail.Core Lib List

section

variable {Version Req : Type} [LinearOrder Version] {semver : Semver Version Req}
  {diagnostic : ResolverDiagnostic}

/-! ## A silent preflight -/

/-- The kinds of diagnostics about versions. -/
def versionKinds : List ResolverDiagnosticKind :=
  [.missingPackage, .missingVersion, .invalidVersionRequirement, .incompatibleVersionRange]

variable {name constraint : String} {spec a b : DependencySpec} {manifest : PackageManifest}
  {requirement : Req} {version : Version}
variable {registry : PackageRegistry} {specs : List DependencySpec}

theorem missingDiagnostic_kind
    (hsome : missingDiagnostic semver registry name constraint = some diagnostic) :
    diagnostic.kind ∈ versionKinds := by
  rw [missingDiagnostic] at hsome
  split at hsome
  · cases hsome
    simp [ResolverDiagnostic.invalidVersionRequirement, versionKinds]
  · split at hsome
    · cases hsome
      simp [ResolverDiagnostic.missingPackage, versionKinds]
    · split at hsome
      · cases hsome
      · cases hsome
        simp [ResolverDiagnostic.missingVersion, versionKinds]

theorem mem_missingDiagnostics {emitted : List (String × String)} (hmem : spec ∈ specs)
    (hfresh : (spec.name, spec.versionConstraint) ∉ emitted)
    (hsome : missingDiagnostic semver registry spec.name spec.versionConstraint = some diagnostic) :
    diagnostic ∈ missingDiagnostics semver registry emitted specs := by
  induction specs generalizing emitted with
  | nil => cases hmem
  | cons head rest ih =>
    rw [missingDiagnostics]
    by_cases hkey : (head.name, head.versionConstraint) = (spec.name, spec.versionConstraint)
    · obtain ⟨hname, hconstraint⟩ := Prod.mk.inj hkey
      rw [hname, hconstraint, if_neg hfresh, hsome]
      exact mem_append_left _ (.head _)
    · have hrest : spec ∈ rest := (mem_cons.1 hmem).resolve_left fun heq => hkey (heq ▸ rfl)
      split
      · exact ih hrest hfresh
      · refine mem_append_right _ (ih hrest ?_)
        exact fun h => (mem_cons.1 h).elim (fun heq => hkey heq.symm) hfresh

/-- Every constraint of a clean preflight can be read, and some registered
version meets it. -/
theorem missingDiagnostic_eq_none
    (hnone : missingDiagnostic semver registry name constraint = none) :
    ∃ requirement, parseRequirement semver constraint = .ok requirement ∧
      ∃ manifest ∈ registry.manifests, manifest.name = name ∧
        ∃ version, semver.parseVersion manifest.version = some version ∧
          semver.accepts requirement version := by
  rw [missingDiagnostic] at hnone
  split at hnone
  · cases hnone
  · rename_i requirement hparse
    refine ⟨requirement, hparse, ?_⟩
    split at hnone
    · cases hnone
    · split at hnone
      · rename_i hany
        obtain ⟨text, hmem, hmatches⟩ := any_eq_true.1 hany
        rw [registryVersionsFor, canonicalVersions, mem_insertionSort, mem_orderedSet,
          mem_map] at hmem
        obtain ⟨manifest, hmanifest, rfl⟩ := hmem
        obtain ⟨hregistered, hname⟩ := mem_filter.1 hmanifest
        rw [versionMatchesConstraint, hparse] at hmatches
        split at hmatches
        · rename_i version _ hversion heq
          cases heq
          exact ⟨manifest, hregistered, of_decide_eq_true hname, version, hversion, hmatches⟩
        · cases hmatches
      · cases hnone

/-- What a clean preflight says about each declaration. -/
theorem missingDiagnostic_of_silent
    (hsilent : ∀ diagnostic ∈ conflictDiagnostics semver specs registry,
      diagnostic.kind ∉ versionKinds)
    (hmem : spec ∈ specs) :
    missingDiagnostic semver registry spec.name spec.versionConstraint = none := by
  cases hdiagnostic : missingDiagnostic semver registry spec.name spec.versionConstraint with
  | none => rfl
  | some diagnostic =>
    have hreported : diagnostic ∈ conflictDiagnostics semver specs registry := by
      rw [conflictDiagnostics, mem_insertionSort]
      refine mem_append_left _ (mem_append_left _ (mem_append_left _ (mem_append_right _ ?_)))
      exact mem_missingDiagnostics hmem not_mem_nil hdiagnostic
    exact absurd (missingDiagnostic_kind hdiagnostic) (hsilent diagnostic hreported)

/-! ## The version that is picked -/

/-- Registered under the name of the dependency, with a version its
constraint accepts. -/
def Matches (semver : Semver Version Req) (spec : DependencySpec) (manifest : PackageManifest)
    (version : Version) : Prop :=
  manifest.name = spec.name ∧ semver.parseVersion manifest.version = some version ∧
    ∃ requirement, parseRequirement semver spec.versionConstraint = .ok requirement ∧
      semver.accepts requirement version

omit [LinearOrder Version] in
theorem candidate_eq_some {found : PackageManifest} :
    candidate semver name requirement manifest = some (found, version) ↔
      found = manifest ∧ manifest.name = name ∧
        semver.parseVersion manifest.version = some version ∧
        semver.accepts requirement version := by
  rw [candidate]
  split
  · simp [*]
  · split
    · simp [*]
    · rename_i parsed hparsed
      split
      · constructor
        · intro heq
          cases heq
          exact ⟨rfl, not_not.1 ‹_›, hparsed, ‹_›⟩
        · rintro ⟨rfl, -, heq, -⟩
          rw [hparsed] at heq
          rw [Option.some.inj heq]
      · simp only [reduceCtorEq, false_iff]
        rintro ⟨-, -, heq, haccepts⟩
        rw [hparsed] at heq
        cases heq
        contradiction

omit [LinearOrder Version] in
/-- The candidates are the releases the requirement accepts. -/
theorem mem_candidates :
    (manifest, version) ∈ candidates semver name requirement registry ↔
      manifest ∈ registry.manifests ∧ manifest.name = name ∧
        semver.parseVersion manifest.version = some version ∧
        semver.accepts requirement version := by
  rw [candidates, mem_filterMap]
  constructor
  · rintro ⟨found, hmem, heq⟩
    obtain ⟨rfl, hname, hparsed, haccepts⟩ := candidate_eq_some.1 heq
    exact ⟨hmem, hname, hparsed, haccepts⟩
  · rintro ⟨hmem, hrest⟩
    exact ⟨manifest, hmem, candidate_eq_some.2 ⟨rfl, hrest⟩⟩

/-- Which manifest of a given version is found first does not depend on
the requirement that accepts it. -/
theorem find?_candidates (haccepts : semver.accepts requirement version)
    (registry : PackageRegistry) :
    (candidates semver name requirement registry).find?
        (fun found => decide (found.2 = version)) =
      (registry.manifests.find? fun manifest => decide (manifest.name = name ∧
        semver.parseVersion manifest.version = some version)).map (·, version) := by
  have hpredicate : ∀ manifest, (candidate semver name requirement manifest).any
        (fun found => decide (found.2 = version)) =
      decide (manifest.name = name ∧ semver.parseVersion manifest.version = some version) := by
    intro manifest
    rw [Bool.eq_iff_iff, Option.any_eq_true, decide_eq_true_iff]
    constructor
    · rintro ⟨⟨found, parsed⟩, hcandidate, heq⟩
      obtain ⟨rfl, hname, hparsed, -⟩ := candidate_eq_some.1 hcandidate
      exact ⟨hname, of_decide_eq_true heq ▸ hparsed⟩
    · rintro ⟨hname, hparsed⟩
      exact ⟨(manifest, version), candidate_eq_some.2 ⟨rfl, hname, hparsed, haccepts⟩,
        decide_eq_true rfl⟩
  rw [candidates, find?_filterMap]
  simp only [hpredicate]
  cases hfind : registry.manifests.find? fun manifest => decide (manifest.name = name ∧
      semver.parseVersion manifest.version = some version) with
  | none => rfl
  | some manifest =>
    have hfound := find?_some hfind
    rw [decide_eq_true_iff] at hfound
    exact candidate_eq_some.2 ⟨rfl, hfound.1, hfound.2, haccepts⟩

/-- What `resolve` picks for a dependency without policies. -/
structure Picks (semver : Semver Version Req) (registry : PackageRegistry) (spec : DependencySpec)
    (manifest : PackageManifest) (version : Version) : Prop where
  registered : manifest ∈ registry.manifests
  accepted : Matches semver spec manifest version
  highest : ∀ other ∈ registry.manifests, ∀ otherVersion, Matches semver spec other otherVersion →
    otherVersion ≤ version
  first : registry.manifests.find? (fun other => decide (other.name = spec.name ∧
    semver.parseVersion other.version = some version)) = some manifest

/-- A dependency that adds no condition to its constraint. -/
structure DependencySpec.Unrestricted (spec : DependencySpec) : Prop where
  minTrust : spec.minTrust = .unsafeCode
  profile : spec.profile = none
  allowedLicenses : spec.allowedLicenses = []
  deniedCapabilities : spec.deniedCapabilities = []
  deniedHandlers : spec.deniedHandlers = []
  minGraphSchema : spec.minGraphSchema = none
  minCoreIrSchema : spec.minCoreIrSchema = none

omit [LinearOrder Version] in
theorem checkPolicies_eq_ok (hfree : spec.Unrestricted) (manifest : PackageManifest) :
    checkPolicies semver spec manifest [] [] = .ok () := by
  have htrust : ∀ level : TrustLevel, level.satisfies .unsafeCode = true := by
    intro level
    cases level <;> rfl
  have hadvisory : AdvisoryChecker.firstMatch semver spec.name manifest.version [] = none := rfl
  simp [checkPolicies, hadvisory, hfree.minTrust, htrust, hfree.profile, hfree.minGraphSchema,
    hfree.minCoreIrSchema, hfree.allowedLicenses, hfree.deniedCapabilities, hfree.deniedHandlers]

/-- A version of a package is one manifest. -/
theorem Picks.unique {other : PackageManifest} (hname : a.name = b.name)
    (ha : Picks semver registry a manifest version) (hb : Picks semver registry b other version) :
    manifest = other := by
  have hfirst := ha.first
  rw [hname, hb.first] at hfirst
  exact (Option.some.inj hfirst).symm

theorem picks_of_pick (hparse : parseRequirement semver spec.versionConstraint = .ok requirement)
    (hpick : pick (fun next best : PackageManifest × Version => decide (best.2 < next.2))
      (candidates semver spec.name requirement registry) = some (manifest, version)) :
    Picks semver registry spec manifest version := by
  obtain ⟨hregistered, hname, hparsed, haccepts⟩ := mem_candidates.1 (mem_of_pick hpick)
  refine ⟨hregistered, ⟨hname, hparsed, requirement, hparse, haccepts⟩,
    fun other hother otherVersion hmatches => ?_, ?_⟩
  · obtain ⟨hotherName, hotherParsed, requirement', hparse', hotherAccepts⟩ := hmatches
    cases hparse.symm.trans hparse'
    exact @pick_max _ _ (fun a b : PackageManifest × Version => a.2 ≤ b.2) (fun _ => le_refl _)
      (fun _ _ _ => le_trans) (fun _ _ h => le_of_lt (of_decide_eq_true h))
      (fun _ _ h => le_of_not_gt (by simpa using h)) _ _ hpick _
      (mem_candidates.2 ⟨hother, hotherName, hotherParsed, hotherAccepts⟩)
  · have hfirst := @pick_first _ _ _ (fun candidate : PackageManifest × Version => candidate.2) _ _
      hpick
    rw [find?_candidates haccepts] at hfirst
    obtain ⟨found, hfound, heq⟩ := Option.map_eq_some_iff.1 hfirst
    cases heq
    exact hfound

/-- A requirement that some registered version meets finds a version. -/
theorem findBestMatch_of_matches {some_ : PackageManifest} {someVersion : Version}
    (hsome : some_ ∈ registry.manifests) (hmatches : Matches semver spec some_ someVersion) :
    ∃ manifest version,
      findBestMatch semver spec.name spec.versionConstraint registry = .ok (some manifest) ∧
        Picks semver registry spec manifest version := by
  obtain ⟨hname, hparsed, requirement, hparse, haccepts⟩ := hmatches
  cases hpick : pick (fun next best : PackageManifest × Version => decide (best.2 < next.2))
      (candidates semver spec.name requirement registry) with
  | none =>
    have hempty := pick_eq_none_iff.1 hpick
    exact absurd (mem_candidates.2 ⟨hsome, hname, hparsed, haccepts⟩) (by simp [hempty])
  | some best =>
    refine ⟨best.1, best.2, ?_, picks_of_pick hparse hpick⟩
    rw [findBestMatch, hparse]
    exact congrArg (fun best => Except.ok (Option.map (·.1) best)) hpick

/-- The best match is the first of the highest registered versions the
constraint accepts. -/
theorem findBestMatch_eq_some_iff :
    findBestMatch semver spec.name spec.versionConstraint registry = .ok (some manifest) ↔
      ∃ version, Picks semver registry spec manifest version := by
  constructor
  · intro hbest
    obtain ⟨requirement, hparse, heq⟩ := bind_eq_ok.1 hbest
    obtain ⟨⟨found, version⟩, hpick, rfl⟩ := Option.map_eq_some_iff.1 (Except.ok.inj heq)
    exact ⟨version, picks_of_pick hparse hpick⟩
  · rintro ⟨version, hpicks⟩
    obtain ⟨found, foundVersion, hbest, hfound⟩ :=
      findBestMatch_of_matches hpicks.registered hpicks.accepted
    obtain rfl : version = foundVersion := le_antisymm
      (hfound.highest manifest hpicks.registered version hpicks.accepted)
      (hpicks.highest found hfound.registered foundVersion hfound.accepted)
    rw [hpicks.unique rfl hfound, hbest]

/-- A dependency is resolved to its best match if that passes the
policies. -/
theorem resolve_eq_ok_iff {advisories : List SecurityAdvisory} {yanks : List YankRecord} :
    resolve semver spec registry advisories yanks = .ok manifest ↔
      (∃ version, Picks semver registry spec manifest version) ∧
        checkPolicies semver spec manifest advisories yanks = .ok () := by
  rw [← findBestMatch_eq_some_iff, resolve]
  split
  next issue hbest => simp [hbest]
  next hbest => simp [hbest]
  next found hbest =>
    rw [bind_eq_ok, hbest]
    constructor
    · rintro ⟨_, hpolicies, heq⟩
      cases heq
      exact ⟨rfl, hpolicies⟩
    · rintro ⟨heq, hpolicies⟩
      cases heq
      exact ⟨(), hpolicies, rfl⟩

theorem exists_picks (hfree : spec.Unrestricted)
    (hnone : missingDiagnostic semver registry spec.name spec.versionConstraint = none) :
    ∃ manifest version, resolve semver spec registry [] [] = .ok manifest ∧
      Picks semver registry spec manifest version := by
  obtain ⟨requirement, hparse, some_, hsome, hname, someVersion, hparsed, haccepts⟩ :=
    missingDiagnostic_eq_none hnone
  obtain ⟨manifest, version, -, hpicks⟩ :=
    findBestMatch_of_matches hsome ⟨hname, hparsed, requirement, hparse, haccepts⟩
  exact ⟨manifest, version,
    resolve_eq_ok_iff.2 ⟨⟨version, hpicks⟩, checkPolicies_eq_ok hfree manifest⟩, hpicks⟩

/-! ## The loop over the dependencies -/

/-- What has been resolved after the listed dependencies. -/
structure ResolvedFor (semver : Semver Version Req) (registry : PackageRegistry)
    (processed : List DependencySpec) (resolved : List PackageManifest) : Prop where
  nodup : (resolved.map (·.name)).Nodup
  chosen : ∀ spec ∈ processed, ∀ manifest, resolve semver spec registry [] [] = .ok manifest →
    ∃ kept ∈ resolved, kept.name = manifest.name ∧ kept.version = manifest.version
  origin : ∀ manifest ∈ resolved, ∃ spec ∈ processed,
    resolve semver spec registry [] [] = .ok manifest

/-- The loop keeps one manifest for each name, and compares versions. -/
theorem resolveStep_eq_collectStep (registry : PackageRegistry)
    (advisories : List SecurityAdvisory) (yanks : List YankRecord) :
    resolveStep semver registry advisories yanks =
      collectStep (·.name) (·.version)
        (fun previous manifest =>
          let versions := canonicalConflictVersions semver previous.version manifest.version
          .conflictingVersion manifest.name versions.1 versions.2)
        (fun spec => resolve semver spec registry advisories yanks) := by
  funext resolved spec
  rw [resolveStep, collectStep]
  cases resolve semver spec registry advisories yanks with
  | error failure => rfl
  | ok manifest =>
    dsimp only [bind, Except.bind]
    cases resolved.find? (·.name = manifest.name) <;> rfl

/-- No two dependencies picked different versions of one package. -/
def Agree (semver : Semver Version Req) (registry : PackageRegistry)
    (specs : List DependencySpec) : Prop :=
  ∀ a ∈ specs, ∀ b ∈ specs, ∀ manifest other,
    resolve semver a registry [] [] = .ok manifest → resolve semver b registry [] [] = .ok other →
    manifest.name = other.name → manifest.version = other.version

theorem resolvedFor_of_foldlM {resolved : List PackageManifest}
    (hok : specs.foldlM (resolveStep semver registry [] []) [] = .ok resolved) :
    ResolvedFor semver registry specs resolved := by
  rw [resolveStep_eq_collectStep] at hok
  have inv := collected_of_foldlM hok
  refine ⟨inv.nodup, fun spec hmem manifest hresolve => ?_, inv.origin⟩
  obtain ⟨found, hfound, kept, hkept, heq⟩ := inv.covered spec hmem
  cases hfound.symm.trans hresolve
  exact ⟨kept, hkept, heq⟩

/-- The loop succeeds exactly if the dependencies agree. -/
theorem foldlM_ok_iff_agree
    (hresolves : ∀ spec ∈ specs, ∃ manifest, resolve semver spec registry [] [] = .ok manifest) :
    (∃ resolved, specs.foldlM (resolveStep semver registry [] []) [] = .ok resolved) ↔
      Agree semver registry specs := by
  constructor
  · rintro ⟨resolved, hok⟩ a ha b hb manifest other hmanifest hother hname
    have inv := resolvedFor_of_foldlM hok
    obtain ⟨kept, hkept, hkeptName, hkeptVersion⟩ := inv.chosen a ha manifest hmanifest
    obtain ⟨kept', hkept', hkeptName', hkeptVersion'⟩ := inv.chosen b hb other hother
    have hsame : kept = kept' := inj_on_of_nodup_map inv.nodup hkept hkept'
      (hkeptName.trans (hname.trans hkeptName'.symm))
    rw [← hkeptVersion, hsame, hkeptVersion']
  · intro hagree
    rw [resolveStep_eq_collectStep]
    exact exists_foldlM_of_consistent hresolves hagree

/-! ## When a clean preflight is enough -/

omit [LinearOrder Version] in
theorem Matches.versionMatchesConstraint (hmatches : Matches semver spec manifest version) :
    versionMatchesConstraint semver manifest.version spec.versionConstraint = true := by
  obtain ⟨-, hparsed, requirement, hparse, haccepts⟩ := hmatches
  rw [Package.versionMatchesConstraint, hparsed, hparse]
  exact haccepts

/-- The highest version one constraint accepts is accepted by every other
constraint on the package. -/
def HighestIsCommon (semver : Semver Version Req) (specs : List DependencySpec)
    (registry : PackageRegistry) : Prop :=
  ∀ a ∈ specs, ∀ b ∈ specs, a.name = b.name →
    ∀ manifest ∈ registry.manifests, ∀ version, Matches semver a manifest version →
      (∀ other ∈ registry.manifests, ∀ otherVersion, Matches semver a other otherVersion →
        otherVersion ≤ version) →
      Matches semver b manifest version

theorem HighestIsCommon.matches (hcommon : HighestIsCommon semver specs registry) (ha : a ∈ specs)
    (hb : b ∈ specs) (hname : a.name = b.name) (hpick : Picks semver registry a manifest version) :
    Matches semver b manifest version :=
  hcommon a ha b hb hname manifest hpick.registered version hpick.accepted hpick.highest

/-- Where every dependency picks a manifest, the picks agree exactly if
each is accepted by the other dependencies on its package. -/
theorem agree_iff_highestIsCommon
    (hpicks : ∀ spec ∈ specs, ∃ manifest version,
      resolve semver spec registry [] [] = .ok manifest ∧
        Picks semver registry spec manifest version) :
    Agree semver registry specs ↔ HighestIsCommon semver specs registry := by
  constructor
  · intro hagree a ha b hb hname manifest hmem version hmatches hhighest
    obtain ⟨pickedA, versionA, hresolveA, hpicksA⟩ := hpicks a ha
    obtain ⟨pickedB, versionB, hresolveB, hpicksB⟩ := hpicks b hb
    have hversions := hagree a ha b hb pickedA pickedB hresolveA hresolveB
      (hpicksA.accepted.1.trans (hname.trans hpicksB.accepted.1.symm))
    -- both are highest for `a`, and what is picked for `b` is the same text
    have hsame : version = versionA := le_antisymm (hpicksA.highest manifest hmem version hmatches)
      (hhighest pickedA hpicksA.registered versionA hpicksA.accepted)
    obtain ⟨-, hparsedB, requirement, hparse, haccepts⟩ := hpicksB.accepted
    have hversionB : version = versionB := by
      have hparsedA := hpicksA.accepted.2.1
      rw [hversions, hparsedB] at hparsedA
      rw [hsame, Option.some.inj hparsedA]
    exact ⟨hmatches.1.trans hname, hmatches.2.1, requirement, hparse, hversionB ▸ haccepts⟩
  · intro hcommon a ha b hb manifest other hmanifest hother hname
    obtain ⟨pickedA, versionA, hresolveA, hpicksA⟩ := hpicks a ha
    obtain ⟨pickedB, versionB, hresolveB, hpicksB⟩ := hpicks b hb
    cases hmanifest.symm.trans hresolveA
    cases hother.symm.trans hresolveB
    have hspecs : a.name = b.name := hpicksA.accepted.1.symm.trans (hname.trans hpicksB.accepted.1)
    obtain rfl : versionA = versionB := le_antisymm
      (hpicksB.highest manifest hpicksA.registered versionA (hcommon.matches ha hb hspecs hpicksA))
      (hpicksA.highest other hpicksB.registered versionB
        (hcommon.matches hb ha hspecs.symm hpicksB))
    rw [hpicksA.unique hspecs hpicksB]

/-- After a clean preflight, resolution succeeds with one version for each
package that meets every constraint on it, exactly under this condition. -/
theorem resolveAll_after_preflight_iff (semver : Semver Version Req) (specs : List DependencySpec)
    (registry : PackageRegistry) (hfree : ∀ spec ∈ specs, spec.Unrestricted)
    (hsilent : ∀ diagnostic ∈ conflictDiagnostics semver specs registry,
      diagnostic.kind ∉ versionKinds) :
    (∃ resolved, resolveAll semver specs registry [] [] = .ok resolved ∧
      ∀ spec ∈ specs, ∃ manifest ∈ resolved, manifest.name = spec.name ∧
        (∀ other ∈ resolved, other.name = spec.name → other = manifest) ∧
        ∀ other ∈ specs, other.name = spec.name →
          versionMatchesConstraint semver manifest.version other.versionConstraint = true) ↔
    HighestIsCommon semver specs registry := by
  have hpicks : ∀ spec ∈ specs, ∃ manifest version,
      resolve semver spec registry [] [] = .ok manifest ∧
        Picks semver registry spec manifest version := fun spec hmem =>
    exists_picks (hfree spec hmem) (missingDiagnostic_of_silent hsilent hmem)
  have hresolves : ∀ spec ∈ specs, ∃ manifest,
      resolve semver spec registry [] [] = .ok manifest := fun spec hmem => by
    obtain ⟨manifest, _, hresolve, -⟩ := hpicks spec hmem
    exact ⟨manifest, hresolve⟩
  have hloop := (foldlM_ok_iff_agree hresolves).trans (agree_iff_highestIsCommon hpicks)
  constructor
  · rintro ⟨resolved, hok, -⟩
    obtain ⟨folded, hfolded, -⟩ := bind_eq_ok.1 hok
    exact hloop.1 ⟨folded, hfolded⟩
  · intro hcommon
    obtain ⟨folded, hfolded⟩ := hloop.2 hcommon
    have inv := resolvedFor_of_foldlM hfolded
    refine ⟨_, by rw [resolveAll, hfolded]; rfl, fun spec hmem => ?_⟩
    obtain ⟨picked, version, hresolve, hpick⟩ := hpicks spec hmem
    obtain ⟨kept, hkept, hkeptName, hkeptVersion⟩ := inv.chosen spec hmem picked hresolve
    have hkeptSpec : kept.name = spec.name := hkeptName.trans hpick.accepted.1
    refine ⟨kept, (mem_insertionSort _).2 hkept, hkeptSpec, fun other hother hname => ?_,
      fun other hother hname => ?_⟩
    · exact inj_on_of_nodup_map inv.nodup ((mem_insertionSort _).1 hother) hkept
        (hname.trans hkeptSpec.symm)
    · rw [hkeptVersion]
      exact (hcommon.matches hmem hother hname.symm hpick).versionMatchesConstraint

end

/-! ## Releases and single comparators -/

/-- Major, minor and patch number. -/
abbrev Release : Type := Lex (Nat × Lex (Nat × Nat))

/-- Requirements with one comparator. -/
inductive Comparator where
  | exactly (version : Release)
  | atLeast (version : Release)
  | below (version : Release)

def number (digits : List Char) : Option Nat :=
  if numericPart digits ∧ (digits.length = 1 ∨ digits.head? ≠ some '0') then
    some (digits.foldl (fun n digit => 10 * n + (digit.toNat - '0'.toNat)) 0)
  else none

def release (text : List Char) : Option Release :=
  match (splitAtChar '.' text).map number with
  | [some major, some minor, some patch] => some (toLex (major, toLex (minor, patch)))
  | _ => none

/-- The `semver` crate on versions without pre-release and build parts. -/
def releaseSemver : Semver Release Comparator where
  parseVersion text := release text.toList
  parseReq text :=
    match text.toList with
    | '>' :: '=' :: version => (release version).map .atLeast
    | '<' :: version => (release version).map .below
    | '=' :: version => (release version).map .exactly
    | _ => none
  accepts
    | .exactly required, version => decide (version = required)
    | .atLeast required, version => decide (required ≤ version)
    | .below required, version => decide (version < required)

/-- A package in two versions. -/
def twoVersions : PackageRegistry :=
  ⟨[{ name := "lib", version := "1.2.0", trustLevel := .verified },
    { name := "lib", version := "1.5.0", trustLevel := .verified }]⟩

def onLib (constraint : String) : DependencySpec :=
  { name := "lib", versionConstraint := constraint, minTrust := .unsafeCode }

theorem onLib_unrestricted (constraint : String) : (onLib constraint).Unrestricted :=
  ⟨rfl, rfl, rfl, rfl, rfl, rfl, rfl⟩

theorem highestIsCommon_of_lower_bounds :
    HighestIsCommon releaseSemver [onLib ">=1.0.0", onLib ">=1.2.0"] twoVersions :=
  (resolveAll_after_preflight_iff releaseSemver [onLib ">=1.0.0", onLib ">=1.2.0"] twoVersions
    (by simp [onLib_unrestricted]) (by decide)).1
    ⟨[{ name := "lib", version := "1.5.0", trustLevel := .verified }], rfl, by decide⟩

/-- Version 1.2.0 meets both constraints, the resolver does not find it. -/
theorem resolveAll_conflict_after_preflight :
    (∀ diagnostic ∈ conflictDiagnostics releaseSemver [onLib ">=1.0.0", onLib "<1.3.0"] twoVersions,
      diagnostic.kind ∉ versionKinds) ∧
    resolveAll releaseSemver [onLib ">=1.0.0", onLib "<1.3.0"] twoVersions [] [] =
      .error (.conflictingVersion "lib" "1.2.0" "1.5.0") :=
  ⟨by decide, rfl⟩

end Ail.Package
