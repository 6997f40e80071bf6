import Ail.Package.Advisory

/-!
# Lock files and their replay

A lock file pins the packages of a resolution (`lockfile.rs`); replaying
it resolves exact requirements for the pinned versions. Exact means of
equal precedence: two versions that differ in their build metadata meet
the same exact requirement, and the resolver takes the greater one. The
replay also asks for more trust than the resolution may have.
-/

namespace Ail.Package

open Ail.Core Lib List

/-! ## The lock file -/

structure ArtifactHashEntry where
  role : String
  hash : String

structure LockfileEntry where
  name : String
  version : String
  requestedVersion : Option String
  packageHash : String
  trustLevel : TrustLevel
  verificationReportHash : Option String
  artifactHashes : List ArtifactHashEntry
  acceptedAssumptions : List String

structure Lockfile where
  entries : List LockfileEntry

/-- What a lock entry records of a manifest beside the fields the
resolver reads. -/
structure ManifestEvidence where
  /-- `blake3_hex` of the manifest, if it can be serialised. -/
  packageHash : Option String
  verificationReportHash : Option String
  artifactHashes : List ArtifactHashEntry

section

variable (evidence : PackageManifest → ManifestEvidence)

def lockfileEntry (spec : DependencySpec) (manifest : PackageManifest) : LockfileEntry where
  name := manifest.name
  version := manifest.version
  requestedVersion := some spec.versionConstraint
  packageHash := (evidence manifest).packageHash.getD ""
  trustLevel := manifest.trustLevel
  verificationReportHash := (evidence manifest).verificationReportHash
  artifactHashes := (evidence manifest).artifactHashes
  acceptedAssumptions := []

def Lockfile.fromResolution (resolutions : List (DependencySpec × PackageManifest)) : Lockfile :=
  ⟨(resolutions.map
      fun resolution => lockfileEntry evidence resolution.1 resolution.2).insertionSort
    fun a b => ((compare a.name b.name).then (compare a.version b.version)).isLE⟩

end

/-- The exact requirement for a pinned package. -/
def pinnedSpec (name version : String) : DependencySpec :=
  { name, versionConstraint := version, minTrust := .unverified }

def Lockfile.toSpecs (lock : Lockfile) : List DependencySpec :=
  lock.entries.map fun entry => pinnedSpec entry.name entry.version

def PackageManifest.coordinate (manifest : PackageManifest) : String × String :=
  (manifest.name, manifest.version)

def LockfileEntry.coordinate (entry : LockfileEntry) : String × String :=
  (entry.name, entry.version)

/-- A registry with further packages, all at other coordinates. -/
def PackageRegistry.Extends (registry' registry : PackageRegistry) : Prop :=
  registry'.manifests.filter (fun manifest =>
    decide (manifest.coordinate ∈ registry.manifests.map (·.coordinate))) = registry.manifests

variable {registry : PackageRegistry} {text name : String}

theorem extends_register {added : List PackageManifest} (hother : ∀ manifest ∈ added,
      manifest.coordinate ∉ registry.manifests.map (·.coordinate)) :
    PackageRegistry.Extends ⟨registry.manifests ++ added⟩ registry := by
  have hold : registry.manifests.filter (fun manifest =>
      decide (manifest.coordinate ∈ registry.manifests.map (·.coordinate))) = registry.manifests :=
    filter_eq_self.2 fun manifest hmem => decide_eq_true (mem_map_of_mem hmem)
  have hnew : added.filter (fun manifest =>
      decide (manifest.coordinate ∈ registry.manifests.map (·.coordinate))) = [] :=
    filter_eq_nil_iff.2 fun manifest hmem => by simpa using hother manifest hmem
  rw [PackageRegistry.Extends, filter_append, hold, hnew, append_nil]

section

variable {Version Req Precedence : Type} {semver : Semver Version Req}
  {precedence : Version → Precedence}

/-! ## Resolving a pinned version -/

variable {version : Version} {manifest pinned found : PackageManifest} {registry' : PackageRegistry}
  {spec : DependencySpec} {advisories : List SecurityAdvisory} {yanks : List YankRecord}
  {resolutions : List (DependencySpec × PackageManifest)}

theorem parseRequirement_version (laws : semver.Laws precedence)
    (hparsed : semver.parseVersion text = some version) :
    ∃ req, parseRequirement semver text = .ok req ∧
      ∀ other, semver.accepts req other = true ↔ precedence other = precedence version := by
  obtain ⟨req, hreq, haccepts⟩ := laws.exact_accepts hparsed
  refine ⟨req, ?_, haccepts⟩
  have hnonempty : text.isEmpty = false := by
    have hne := laws.version_ne_nil hparsed
    simpa using hne
  have hexact : exactRequirement semver text = some ("=" ++ text) := by
    simp [exactRequirement, normalizeVersion, hparsed]
  simp [parseRequirement, laws.trim_version hparsed, hnonempty, hexact, hreq]

/-- The versions a pinned package's requirement accepts. -/
theorem matches_pinnedSpec_iff (laws : semver.Laws precedence)
    (hparsed : semver.parseVersion text = some version) {other : Version} :
    Matches semver (pinnedSpec name text) manifest other ↔
      manifest.name = name ∧ semver.parseVersion manifest.version = some other ∧
        precedence other = precedence version := by
  obtain ⟨req, hreq, haccepts⟩ := parseRequirement_version laws hparsed
  constructor
  · rintro ⟨hname, hother, requirement, hrequirement, hmatches⟩
    cases hreq.symm.trans hrequirement
    exact ⟨hname, hother, (haccepts other).1 hmatches⟩
  · rintro ⟨hname, hother, hsame⟩
    exact ⟨hname, hother, req, hreq, (haccepts other).2 hsame⟩

/-- What passed the policies of a dependency passes those of its pin if
it is not unsafe. -/
theorem checkPolicies_pinnedSpec (hname : pinned.name = spec.name)
    (hpolicies : checkPolicies semver spec pinned advisories yanks = .ok ()) :
    checkPolicies semver (pinnedSpec pinned.name pinned.version) pinned advisories yanks = .ok () ↔
      pinned.trustLevel ≠ .unsafeCode := by
  have hyank : yanks.find? (fun yank => yank.name = spec.name ∧ yank.version = pinned.version) =
      none := by
    cases hfind : yanks.find? (fun yank => yank.name = spec.name ∧
      yank.version = pinned.version) with
    | none => rfl
    | some yank => simp only [checkPolicies, hfind, reduceCtorEq] at hpolicies
  have hadvisory : AdvisoryChecker.firstMatch semver spec.name pinned.version advisories =
    none := by
    cases hfirst : AdvisoryChecker.firstMatch semver spec.name pinned.version advisories with
    | none => rfl
    | some advisory => simp only [checkPolicies, hyank, hfirst, reduceCtorEq] at hpolicies
  simp only [checkPolicies, pinnedSpec, hname, hyank, hadvisory]
  cases pinned.trustLevel <;> simp <;> decide

theorem PackageRegistry.Extends.mem (hext : registry'.Extends registry)
    (hmem : manifest ∈ registry.manifests) : manifest ∈ registry'.manifests := by
  rw [← hext] at hmem
  exact mem_of_mem_filter hmem

variable [LinearOrder Version]

/-- No package of the name has a version of the same precedence above the
pinned one. -/
def Topmost (semver : Semver Version Req) (precedence : Version → Precedence)
    (registry : PackageRegistry) (pinned : PackageManifest) : Prop :=
  ∀ other ∈ registry.manifests, other.name = pinned.name →
    ∀ version otherVersion, semver.parseVersion pinned.version = some version →
      semver.parseVersion other.version = some otherVersion →
      precedence otherVersion = precedence version → otherVersion ≤ version

/-- The first manifest of a registered version is still the first. -/
theorem PackageRegistry.Extends.find? (laws : semver.Laws precedence)
    (hext : registry'.Extends registry)
    (hfind : registry.manifests.find? (fun other => decide (other.name = name ∧
      semver.parseVersion other.version = some version)) = some manifest) :
    registry'.manifests.find? (fun other => decide (other.name = name ∧
      semver.parseVersion other.version = some version)) = some manifest := by
  have hmem := mem_of_find?_eq_some hfind
  have hfound := find?_some hfind
  rw [decide_eq_true_iff] at hfound
  rw [← hext, find?_filter] at hfind
  rw [← hfind]
  congr 1
  funext other
  rw [Bool.eq_iff_iff]
  simp only [decide_eq_true_iff]
  constructor
  · rintro ⟨hname, hparsed⟩
    have hcoordinate : other.coordinate = manifest.coordinate := by
      rw [PackageManifest.coordinate, PackageManifest.coordinate, hname, hfound.1,
         laws.version_unique hparsed hfound.2]
    exact ⟨hcoordinate ▸ mem_map_of_mem hmem, hname, hparsed⟩
  · exact fun h => h.2

/-- A resolved package is picked again, unless one above it was added. -/
theorem picks_pinnedSpec_iff (laws : semver.Laws precedence) (hext : registry'.Extends registry)
    (hpicks : Picks semver registry spec pinned version) {foundVersion : Version} :
    (Picks semver registry' (pinnedSpec pinned.name pinned.version) found foundVersion ∧
      found.version = pinned.version) ↔
      found = pinned ∧ foundVersion = version ∧ Topmost semver precedence registry' pinned := by
  have hparsed := hpicks.accepted.2.1
  have hname := hpicks.accepted.1
  have hmatches : ∀ {manifest : PackageManifest} {other : Version},
      Matches semver (pinnedSpec pinned.name pinned.version) manifest other ↔
        manifest.name = pinned.name ∧ semver.parseVersion manifest.version = some other ∧
          precedence other = precedence version := matches_pinnedSpec_iff laws hparsed
  have hfirst : registry'.manifests.find? (fun other => decide (other.name = pinned.name ∧
      semver.parseVersion other.version = some version)) = some pinned :=
    hext.find? laws (hname ▸ hpicks.first)
  constructor
  · rintro ⟨hagain, hsame⟩
    have hversion : foundVersion = version := by
      have hfound := hagain.accepted.2.1
      rw [hsame, hparsed] at hfound
      exact (Option.some.inj hfound).symm
    subst hversion
    refine ⟨?_, rfl, fun other hother hotherName pinnedVersion otherVersion hpinned hotherParsed
      hprecedence => ?_⟩
    · exact Option.some.inj (hagain.first.symm.trans hfirst)
    · rw [hparsed] at hpinned
      cases hpinned
      exact hagain.highest other hother otherVersion
        (hmatches.2 ⟨hotherName, hotherParsed, hprecedence⟩)
  · rintro ⟨rfl, rfl, htop⟩
    refine ⟨⟨hext.mem hpicks.registered, hmatches.2 ⟨rfl, hparsed, rfl⟩,
      fun other hother otherVersion hother' => ?_, hfirst⟩, rfl⟩
    obtain ⟨hotherName, hotherParsed, hprecedence⟩ := hmatches.1 hother'
    exact htop other hother hotherName _ otherVersion hparsed hotherParsed hprecedence

/-- The pin of a resolved package is resolved to the pinned version
exactly under these conditions, and then to the very package. -/
theorem resolve_pinnedSpec_iff (laws : semver.Laws precedence) (hext : registry'.Extends registry)
    (hresolve : resolve semver spec registry advisories yanks = .ok pinned) :
    (resolve semver (pinnedSpec pinned.name pinned.version) registry' advisories yanks = .ok found ∧
      found.version = pinned.version) ↔
      found = pinned ∧ pinned.trustLevel ≠ .unsafeCode ∧
        Topmost semver precedence registry' pinned := by
  obtain ⟨⟨version, hpicks⟩, hpolicies⟩ := resolve_eq_ok_iff.1 hresolve
  have hchecked := checkPolicies_pinnedSpec hpicks.accepted.1 hpolicies
  rw [resolve_eq_ok_iff]
  constructor
  · rintro ⟨⟨⟨foundVersion, hagain⟩, hfound⟩, hsame⟩
    obtain ⟨rfl, -, htop⟩ := (picks_pinnedSpec_iff laws hext hpicks).1 ⟨hagain, hsame⟩
    exact ⟨rfl, hchecked.1 hfound, htop⟩
  · rintro ⟨rfl, htrust, htop⟩
    obtain ⟨hagain, hsame⟩ := (picks_pinnedSpec_iff laws hext hpicks).2 ⟨rfl, rfl, htop⟩
    exact ⟨⟨⟨version, hagain⟩, hchecked.2 htrust⟩, hsame⟩

/-! ## Replaying a lock file -/

variable {specs : List DependencySpec}

theorem collected_of_resolveAll {resolved : List PackageManifest}
    (hok : resolveAll semver specs registry advisories yanks = .ok resolved) :
    Collected (·.name) (·.version) (fun spec => resolve semver spec registry advisories yanks) specs
      resolved := by
  obtain ⟨kept, hkept, heq⟩ := bind_eq_ok.1 hok
  cases heq
  rw [resolveStep_eq_collectStep] at hkept
  have inv := collected_of_foldlM hkept
  have hsorted : ∀ manifest,
      manifest ∈ kept.insertionSort (fun a b => (compare a.name b.name).isLE) ↔ manifest ∈ kept :=
    fun _ => mem_insertionSort _
  refine ⟨?_, fun spec hmem => ?_, fun manifest hmem => inv.origin manifest ((hsorted _).1 hmem)⟩
  · exact ((perm_insertionSort _ kept).map _).nodup_iff.2 inv.nodup
  · obtain ⟨found, hfound, entry, hentry, hsame⟩ := inv.covered spec hmem
    exact ⟨found, hfound, entry, (hsorted _).2 hentry, hsame⟩

theorem exists_resolveAll_of_consistent
    (hresolves : ∀ spec ∈ specs, ∃ manifest, resolve semver spec registry advisories yanks =
      .ok manifest)
    (hsame : Consistent (·.name) (·.version)
      (fun spec => resolve semver spec registry advisories yanks) specs) :
    ∃ resolved, resolveAll semver specs registry advisories yanks = .ok resolved := by
  obtain ⟨kept, hkept⟩ := exists_foldlM_of_consistent hresolves hsame
  refine ⟨_, bind_eq_ok.2 ⟨kept, ?_, rfl⟩⟩
  rw [resolveStep_eq_collectStep]
  exact hkept

variable {evidence : PackageManifest → ManifestEvidence}

open Lockfile

theorem mem_entries {entry : LockfileEntry} :
    entry ∈ (fromResolution evidence resolutions).entries ↔
      ∃ resolution ∈ resolutions, lockfileEntry evidence resolution.1 resolution.2 = entry := by
  rw [fromResolution, mem_insertionSort, mem_map]

theorem mem_toSpecs :
    spec ∈ (fromResolution evidence resolutions).toSpecs ↔
      ∃ resolution ∈ resolutions,
        pinnedSpec resolution.2.name resolution.2.version = spec := by
  rw [toSpecs]
  simp [mem_entries, lockfileEntry]

theorem mem_coordinates {coordinate : String × String} :
    coordinate ∈ (fromResolution evidence resolutions).entries.map (·.coordinate) ↔
      ∃ resolution ∈ resolutions, resolution.2.coordinate = coordinate := by
  rw [mem_map]
  simp [mem_entries, lockfileEntry, LockfileEntry.coordinate, PackageManifest.coordinate]

/-- Replaying the lock file of a resolution, on the registry or on one
with further packages, gives exactly the locked packages if and only if
none of them is unsafe and none has been joined by a greater version of
the same precedence. -/
theorem replay_eq_locked_iff (laws : semver.Laws precedence)
    (evidence : PackageManifest → ManifestEvidence) {specs : List DependencySpec}
    {registry registry' : PackageRegistry} {advisories : List SecurityAdvisory}
    {yanks : List YankRecord} {resolved : List PackageManifest}
    (hresolved : resolveAll semver specs registry advisories yanks = .ok resolved)
    {resolutions : List (DependencySpec × PackageManifest)}
    (hfrom : ∀ resolution ∈ resolutions, resolution.2 ∈ resolved)
    (hext : registry'.Extends registry) :
    (∃ replayed,
      resolveAll semver (Lockfile.fromResolution evidence resolutions).toSpecs registry' advisories
        yanks = .ok replayed ∧
      ∀ coordinate, coordinate ∈ replayed.map (·.coordinate) ↔
        coordinate ∈ (Lockfile.fromResolution evidence resolutions).entries.map (·.coordinate)) ↔
    ∀ resolution ∈ resolutions, resolution.2.trustLevel ≠ .unsafeCode ∧
      Topmost semver precedence registry' resolution.2 := by
  have inv := collected_of_resolveAll hresolved
  -- a locked name has one locked version
  have hunique : ∀ a ∈ resolutions, ∀ b ∈ resolutions, a.2.name = b.2.name → a.2 = b.2 :=
    fun a ha b hb => inj_on_of_nodup_map inv.nodup (hfrom a ha) (hfrom b hb)
  have horigin : ∀ resolution ∈ resolutions, ∃ spec,
      resolve semver spec registry advisories yanks = .ok resolution.2 := by
    intro resolution hmem
    obtain ⟨spec, -, hresolve⟩ := inv.origin _ (hfrom resolution hmem)
    exact ⟨spec, hresolve⟩
  constructor
  · rintro ⟨replayed, hreplay, hcoordinates⟩ resolution hmem
    obtain ⟨spec, hresolve⟩ := horigin resolution hmem
    obtain ⟨found, hfound, kept, hkept, hname, hversion⟩ :=
      (collected_of_resolveAll hreplay).covered _ (mem_toSpecs.2 ⟨resolution, hmem, rfl⟩)
    obtain ⟨other, hother, hsame⟩ := mem_coordinates.1 ((hcoordinates _).1 (mem_map_of_mem hkept))
    obtain ⟨⟨foundVersion, hpicks⟩, -⟩ := resolve_eq_ok_iff.1 hfound
    obtain ⟨hkeptName, hkeptVersion⟩ := Prod.mk.inj hsame.symm
    have hlocked : other.2 = resolution.2 := hunique other hother resolution hmem
      (hkeptName.symm.trans (hname.trans hpicks.accepted.1))
    have hpinned : found.version = resolution.2.version := by
      rw [← hversion, ← hlocked]
      exact hkeptVersion
    exact ((resolve_pinnedSpec_iff laws hext hresolve).1 ⟨hfound, hpinned⟩).2
  · intro hpinned
    have hresolves : ∀ resolution ∈ resolutions,
        resolve semver (pinnedSpec resolution.2.name resolution.2.version) registry' advisories
          yanks = .ok resolution.2 := by
      intro resolution hmem
      obtain ⟨spec, hresolve⟩ := horigin resolution hmem
      exact ((resolve_pinnedSpec_iff laws hext hresolve).2 ⟨rfl, hpinned resolution hmem⟩).1
    obtain ⟨replayed, hreplay⟩ := @exists_resolveAll_of_consistent registry' _ _ semver
      advisories yanks _ (fromResolution evidence resolutions).toSpecs (by
        intro spec hspec
        obtain ⟨resolution, hmem, rfl⟩ := mem_toSpecs.1 hspec
        exact ⟨_, hresolves resolution hmem⟩) (by
        intro a ha b hb first second hfirst hsecond hname
        obtain ⟨ra, hra, rfl⟩ := mem_toSpecs.1 ha
        obtain ⟨rb, hrb, rfl⟩ := mem_toSpecs.1 hb
        cases hfirst.symm.trans (hresolves ra hra)
        cases hsecond.symm.trans (hresolves rb hrb)
        exact congrArg PackageManifest.version (hunique ra hra rb hrb hname))
    have inv' := collected_of_resolveAll hreplay
    refine ⟨replayed, hreplay, fun coordinate => ?_⟩
    rw [mem_coordinates]
    constructor
    · intro hmem
      obtain ⟨manifest, hmanifest, rfl⟩ := mem_map.1 hmem
      obtain ⟨spec, hspec, hresolve⟩ := inv'.origin manifest hmanifest
      obtain ⟨resolution, hresolution, rfl⟩ := mem_toSpecs.1 hspec
      cases hresolve.symm.trans (hresolves resolution hresolution)
      exact ⟨resolution, hresolution, rfl⟩
    · rintro ⟨resolution, hresolution, rfl⟩
      obtain ⟨found, hfound, kept, hkept, hname, hversion⟩ :=
        inv'.covered _ (mem_toSpecs.2 ⟨resolution, hresolution, rfl⟩)
      cases hfound.symm.trans (hresolves resolution hresolution)
      exact mem_map.2 ⟨kept, hkept, Prod.ext hname hversion⟩

end

/-! ## A build that takes the place of a release -/

def libVersion (version : String) : PackageManifest :=
  { name := "lib", version, trustLevel := .verified }

/-- No serialisation, no report, no artifacts. -/
def noEvidence (_manifest : PackageManifest) : ManifestEvidence := ⟨none, none, []⟩

def utilVersion (version : String) : PackageManifest :=
  { name := "util", version, trustLevel := .verified }

/-- Two packages, each with a release. -/
def libAndUtil : PackageRegistry := ⟨[libVersion "1.0.0", utilVersion "1.0.0"]⟩

def onUtil (requirement : String) : DependencySpec := { onLib requirement with name := "util" }

/-- A later release of one package does not matter to the lock of both. -/
theorem topmost_beside_later_release :
    Topmost buildSemver BuiltRelease.precedence ⟨libAndUtil.manifests ++ [libVersion "2.0.0"]⟩
      (libVersion "1.0.0") := by
  have hresolved : resolveAll buildSemver [onLib ">=1.0.0", onUtil ">=1.0.0"] libAndUtil [] [] =
      .ok [libVersion "1.0.0", utilVersion "1.0.0"] := rfl
  refine ((replay_eq_locked_iff buildSemver_laws noEvidence hresolved
    (show ∀ resolution ∈ [(onLib ">=1.0.0", libVersion "1.0.0"),
      (onUtil ">=1.0.0", utilVersion "1.0.0")], resolution.2 ∈ _ by simp)
    (@extends_register libAndUtil [libVersion "2.0.0"] (by decide))).1
    ⟨[libVersion "1.0.0", utilVersion "1.0.0"], rfl, fun _ => Iff.rfl⟩ _ (.head _)).2

/-- The lock pins 1.0.0; after 1.0.0+fix was added, the replay gives that. -/
theorem replay_takes_added_build :
    resolveAll buildSemver [onLib ">=1.0.0"] ⟨[libVersion "1.0.0"]⟩ [] [] =
      .ok [libVersion "1.0.0"] ∧
    PackageRegistry.Extends ⟨[libVersion "1.0.0", libVersion "1.0.0+fix"]⟩ ⟨[libVersion "1.0.0"]⟩ ∧
    resolveAll buildSemver
      (Lockfile.fromResolution noEvidence [(onLib ">=1.0.0", libVersion "1.0.0")]).toSpecs
      ⟨[libVersion "1.0.0", libVersion "1.0.0+fix"]⟩ [] [] = .ok [libVersion "1.0.0+fix"] :=
  ⟨rfl, rfl, rfl⟩

/-! ## Dependencies in any order -/

section Order

variable {Version Req : Type} [LinearOrder Version] {semver : Semver Version Req}
  {registry : PackageRegistry} {advisories : List SecurityAdvisory} {yanks : List YankRecord}
  {specs specs' : List DependencySpec} {resolved : List PackageManifest}
  (hok : resolveAll semver specs registry advisories yanks = .ok resolved)
include hok

/-- The packages the dependencies are resolved to, one by one: a name and
a version text tell the package. -/
theorem mem_resolveAll {manifest : PackageManifest} : manifest ∈ resolved ↔
    ∃ spec ∈ specs, resolve semver spec registry advisories yanks = .ok manifest := by
  have inv := collected_of_resolveAll hok
  refine ⟨inv.origin manifest, fun ⟨spec, hspec, hmanifest⟩ => ?_⟩
  obtain ⟨found, hfound, kept, hkept, hname, hversion⟩ := inv.covered spec hspec
  obtain ⟨origin, -, horigin⟩ := inv.origin kept hkept
  cases hfound.symm.trans hmanifest
  obtain ⟨⟨version, hpicks⟩, -⟩ := resolve_eq_ok_iff.1 hmanifest
  obtain ⟨⟨version', hpicks'⟩, -⟩ := resolve_eq_ok_iff.1 horigin
  have hparsed := hpicks.accepted.2.1
  rw [← hversion, hpicks'.accepted.2.1] at hparsed
  cases hparsed
  rwa [hpicks.unique (hpicks.accepted.1.symm.trans (hname.symm.trans hpicks'.accepted.1)) hpicks']

theorem resolveAll_sorted : resolved.Pairwise fun a b => (compare a.name b.name).isLE := by
  obtain ⟨kept, -, heq⟩ := bind_eq_ok.1 hok
  cases heq
  exact pairwise_insertionSort (Order.Preimage (·.name) fun a b : String => (compare a b).isLE) kept

/-- Dependencies that are declared in another order, or twice, are
resolved to the same packages. -/
theorem resolveAll_of_same_specs (hsame : ∀ spec, spec ∈ specs ↔ spec ∈ specs') :
    resolveAll semver specs' registry advisories yanks = .ok resolved := by
  have inv := collected_of_resolveAll hok
  obtain ⟨resolved', hok'⟩ : ∃ resolved',
      resolveAll semver specs' registry advisories yanks = .ok resolved' := by
    refine exists_resolveAll_of_consistent (fun spec hspec => ?_)
      fun a ha b hb first second hfirst hsecond hname => ?_
    · obtain ⟨found, hfound, -⟩ := inv.covered spec ((hsame spec).2 hspec)
      exact ⟨found, hfound⟩
    · exact congrArg _ (inj_on_of_nodup_map inv.nodup
        ((mem_resolveAll hok).2 ⟨a, (hsame a).2 ha, hfirst⟩)
        ((mem_resolveAll hok).2 ⟨b, (hsame b).2 hb, hsecond⟩) hname)
  have hperm : resolved'.Perm resolved :=
    (perm_ext_iff_of_nodup (.of_map _ (collected_of_resolveAll hok').nodup)
      (.of_map _ inv.nodup)).2 fun manifest => by
        simp [mem_resolveAll hok, mem_resolveAll hok', hsame]
  rw [hok', hperm.eq_of_pairwise (fun a b ha hb hle hge => ?_) (resolveAll_sorted hok')
    (resolveAll_sorted hok)]
  exact inj_on_of_nodup_map inv.nodup (hperm.subset ha) hb
    (Std.LawfulEqCmp.eq_of_compare (Std.OrientedCmp.isLE_antisymm hle hge))

end Order

/-- Two packages, one of them asked for twice. -/
theorem resolveAll_of_repeated :
    resolveAll buildSemver [onUtil ">=1.0.0", onLib ">=1.0.0", onUtil ">=1.0.0"] libAndUtil [] [] =
      .ok [libVersion "1.0.0", utilVersion "1.0.0"] :=
  @resolveAll_of_same_specs _ _ _ _ _ _ _ [onLib ">=1.0.0", onUtil ">=1.0.0"] _ _ rfl (by simp)

end Ail.Package
