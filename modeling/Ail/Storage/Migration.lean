import Ail.Storage.Collection

/-!
# Schema versions and what a collection loses

`migration.rs` keeps the schema version of a store in the store itself:
version `v` was reached if the object whose bytes encode `v` exists. No
snapshot refers to these markers. The collector keeps the envelopes and
graphs of the retained snapshots only, so the markers are swept with
everything else, and so are the audit records, migration metadata and
verification reports the retained snapshots refer to.
-/

namespace Ail.Storage

open Lib List

/-! ## Reading the version -/

/-- A migration step; what it does to the store, and to which version of
it, is not modelled. -/
structure Migration where
  targetVersion : UInt32

structure MigrationCatalog where
  migrations : List Migration

def MigrationCatalog.maxTarget (catalog : MigrationCatalog) : UInt32 :=
  (catalog.migrations.map (·.targetVersion)).max?.getD 0

/-- The versions from 1 on. -/
def versionsUpTo (maxVersion : UInt32) : List UInt32 :=
  (List.range' 1 maxVersion.toNat).map UInt32.ofNat

section

variable {Oid Bytes : Type} [DecidableEq Oid] (platform : Platform Oid Bytes)
  {objects : Objects Oid Bytes} {version : UInt32} {versions : List UInt32}

def versionId (version : UInt32) : Except StorageError Oid := do
  let bytes ← platform.encodeVersion version
  return platform.fromBytes bytes

/-- One round of the search for the highest marker. -/
def readVersionStep (objects : Objects Oid Bytes) (highest version : UInt32) :
    Except StorageError UInt32 := do
  let id ← versionId platform version
  return if id ∈ objects then version else highest

def readVersion (objects : Objects Oid Bytes) (maxVersion : UInt32) : Except StorageError UInt32 :=
  (versionsUpTo maxVersion).foldlM (readVersionStep platform objects) 0

def MigrationCatalog.currentVersion (catalog : MigrationCatalog) (objects : Objects Oid Bytes) :
    Except StorageError UInt32 :=
  readVersion platform objects catalog.maxTarget

/-- Whether version `version` was ever reached. -/
def hasMarker (objects : Objects Oid Bytes) (version : UInt32) : Bool :=
  match versionId platform version with
  | .ok id => decide (id ∈ objects)
  | .error _ => false

variable {platform}

theorem zero_notMem_versionsUpTo (maxVersion : UInt32) : 0 ∉ versionsUpTo maxVersion := by
  intro hmem
  obtain ⟨number, hrange, hzero⟩ := mem_map.1 hmem
  have hbound := maxVersion.toNat_lt
  have htoNat : (UInt32.ofNat number).toNat = 0 := by rw [hzero]; rfl
  rw [mem_range'_1] at hrange
  rw [UInt32.toNat_ofNat'] at htoNat
  omega

theorem hasMarker_iff {id : Oid} (hid : versionId platform version = .ok id) :
    hasMarker platform objects version ↔ id ∈ objects := by
  rw [hasMarker, hid]
  exact decide_eq_true_iff

/-- The search ends at the last marker of the list. -/
theorem foldlM_readVersionStep
    (hids : ∀ version ∈ versions, ∃ id, versionId platform version = .ok id) (highest : UInt32) :
    versions.foldlM (readVersionStep platform objects) highest =
      .ok ((versions.filter (hasMarker platform objects)).getLast?.getD highest) := by
  induction versions generalizing highest with
  | nil => rfl
  | cons version rest ih =>
    obtain ⟨id, hid⟩ := hids version (.head _)
    rw [foldlM_cons, readVersionStep, hid]
    refine (ih (fun v hmem => hids v (.tail _ hmem)) _).trans ?_
    by_cases hmem : id ∈ objects
    · rw [filter_cons_of_pos ((hasMarker_iff hid).2 hmem)]
      simp [hmem, getLast?_cons]
    · rw [filter_cons_of_neg (mt (hasMarker_iff hid).1 hmem)]
      simp [hmem]

/-- Whether a marker's id can be computed does not depend on the store. -/
theorem foldlM_readVersionStep_error (hmem : version ∈ versions) {failure : StorageError}
    (hfails : versionId platform version = .error failure) :
    ∃ first, ∀ (objects : Objects Oid Bytes) highest,
      versions.foldlM (readVersionStep platform objects) highest = .error first := by
  induction versions with
  | nil => cases hmem
  | cons head rest ih =>
    cases hhead : versionId platform head with
    | error first =>
      refine ⟨first, fun objects highest => ?_⟩
      rw [foldlM_cons, readVersionStep, hhead]
      rfl
    | ok id =>
      have hrest : version ∈ rest := (mem_cons.1 hmem).resolve_left fun heq => by
        rw [heq, hhead] at hfails
        cases hfails
      obtain ⟨first, hfirst⟩ := ih hrest
      refine ⟨first, fun objects highest => ?_⟩
      rw [foldlM_cons, readVersionStep, hhead]
      exact hfirst objects _

/-! ## A smaller store -/

/-- The last element that is marked is the last of those that also stay,
exactly if it stays. -/
theorem getLast?_filter_eq_iff {α : Type} (stays : α → Bool) (marked : List α) :
    (marked.filter stays).getLast? = marked.getLast? ↔
      ∀ last, marked.getLast? = some last → stays last := by
  constructor
  · intro heq last hlast
    exact (mem_filter.1 (mem_of_getLast? (heq.trans hlast))).2
  · intro hstays
    rcases eq_nil_or_concat marked with rfl | ⟨earlier, last, rfl⟩
    · rfl
    · have hlast : stays last := hstays last (by simp)
      simp [hlast]

theorem getLast?_getD_zero_inj {first second : List UInt32} (hfirst : 0 ∉ first)
    (hsecond : 0 ∉ second) :
    first.getLast?.getD 0 = second.getLast?.getD 0 ↔ first.getLast? = second.getLast? := by
  refine ⟨fun heq => ?_, fun heq => by rw [heq]⟩
  cases hlast : first.getLast? <;> cases hlast' : second.getLast? <;>
    simp only [hlast, hlast', Option.getD_some] at heq
  · rfl
  · exact absurd (mem_of_getLast? hlast') (heq ▸ hsecond)
  · exact absurd (mem_of_getLast? hlast) (heq ▸ hfirst)
  · rw [heq]

/-- Taking objects away leaves the version unchanged exactly if the marker
of the version stays. -/
theorem readVersion_eq_iff {before remaining : Objects Oid Bytes} {keeps : Oid → Prop}
    (hkeeps : ∀ id, id ∈ remaining ↔ keeps id ∧ id ∈ before) (maxVersion : UInt32) :
    readVersion platform remaining maxVersion = readVersion platform before maxVersion ↔
      ∀ version id, readVersion platform before maxVersion = .ok version → version ≠ 0 →
        versionId platform version = .ok id → keeps id := by
  classical
  by_cases hids : ∀ version ∈ versionsUpTo maxVersion, ∃ id, versionId platform version = .ok id
  · let stays := fun version => decide (∀ id, versionId platform version = .ok id → keeps id)
    have hfilter : (versionsUpTo maxVersion).filter (hasMarker platform remaining) =
        ((versionsUpTo maxVersion).filter (hasMarker platform before)).filter stays := by
      rw [filter_filter]
      refine filter_congr fun version hmem => ?_
      obtain ⟨id, hid⟩ := hids version hmem
      rw [Bool.eq_iff_iff, hasMarker_iff hid, hkeeps, Bool.and_eq_true, hasMarker_iff hid]
      simp [stays, hid]
    rw [readVersion, readVersion, foldlM_readVersionStep hids, foldlM_readVersionStep hids, hfilter,
      Except.ok.injEq]
    have hzero : 0 ∉ (versionsUpTo maxVersion).filter (hasMarker platform before) :=
      fun hmem => zero_notMem_versionsUpTo maxVersion (mem_filter.1 hmem).1
    generalize (versionsUpTo maxVersion).filter (hasMarker platform before) = marked at hzero ⊢
    rw [getLast?_getD_zero_inj (fun hmem => hzero (mem_filter.1 hmem).1) hzero,
      getLast?_filter_eq_iff]
    cases hlast : marked.getLast? with
    | none =>
      exact ⟨fun _ _ _ heq hne => absurd (Except.ok.inj heq).symm hne,
        fun _ _ hsome => nomatch hsome⟩
    | some last =>
      have hne : last ≠ 0 := fun heq => hzero (heq ▸ mem_of_getLast? hlast)
      constructor
      · rintro hstays version id heq - hid
        cases heq
        exact of_decide_eq_true (hstays _ rfl) id hid
      · rintro hall other hsome
        cases hsome
        exact decide_eq_true fun id hid => hall _ id rfl hne hid
  · push Not at hids
    obtain ⟨version, hmem, hfails⟩ := hids
    cases hid : versionId platform version with
    | ok id => exact absurd hid (hfails id)
    | error failure =>
      obtain ⟨first, hfirst⟩ := foldlM_readVersionStep_error hmem hid
      rw [readVersion, readVersion, hfirst, hfirst]
      exact ⟨fun _ _ _ habs => (nomatch habs), fun _ => rfl⟩

/-! ## What a collection loses -/

/-- Every object an envelope refers to. -/
def SnapshotEnvelope.references {Oid : Type} (envelope : SnapshotEnvelope Oid) : List Oid :=
  envelope.graphRootHash :: envelope.auditRecordIds ++ envelope.migrationMetadataIds ++
    envelope.verificationReportHash.toList

/-- A collection keeps what the retained snapshots refer to and the schema
version exactly if all of it happens to be the envelope or the graph of
a retained snapshot. -/
theorem collectGarbage_keeps_references_iff (hinj : Function.Injective platform.fromBytes)
    (hround : platform.RoundTrips) (calls : List (Call Oid Bytes)) (policy : RetentionPolicy)
    (holds : SnapshotHolds Oid) (nowMs : UInt64) (catalog : MigrationCatalog)
    (snapshots : List (SnapshotEnvelope Oid))
    (hlist : (GraphStore.after platform calls).listSnapshots platform = .ok snapshots) :
    ∃ collected,
      collectGarbage platform (GraphStore.after platform calls) policy holds nowMs =
        .ok collected ∧
      ((∀ envelope ∈ snapshots.filter (retained policy holds nowMs),
          ∀ id ∈ envelope.references, id ∈ (GraphStore.after platform calls).objects →
            id ∈ collected.objects) ∧
        catalog.currentVersion platform collected.objects =
          catalog.currentVersion platform (GraphStore.after platform calls).objects ↔
      (∀ envelope ∈ snapshots.filter (retained policy holds nowMs),
          ∀ id ∈ envelope.references, id ∈ (GraphStore.after platform calls).objects →
            Live platform (snapshots.filter (retained policy holds nowMs)) id) ∧
        ∀ version id,
          catalog.currentVersion platform (GraphStore.after platform calls).objects =
            .ok version →
          version ≠ 0 → versionId platform version = .ok id →
          Live platform (snapshots.filter (retained policy holds nowMs)) id) := by
  obtain ⟨collected, hgc, hspec⟩ := @collectGarbage_spec _ _ _ _ _ _ policy holds nowMs hinj hround
    (sound_after hinj hround calls) hlist
  have hkeeps : ∀ id, id ∈ collected.objects ↔
      Live platform (snapshots.filter (retained policy holds nowMs)) id ∧
        id ∈ (GraphStore.after platform calls).objects := fun id => by
    constructor
    · intro hmem
      have hlive := hspec.live_of_mem id hmem
      rw [← AList.lookup_isSome, hspec.lookup_of_live id hlive] at hmem
      exact ⟨hlive, AList.lookup_isSome.1 hmem⟩
    · rintro ⟨hlive, hmem⟩
      rw [← AList.lookup_isSome, hspec.lookup_of_live id hlive]
      exact AList.lookup_isSome.2 hmem
  refine ⟨collected, hgc, and_congr ?_ (readVersion_eq_iff hkeeps catalog.maxTarget)⟩
  refine forall₂_congr fun envelope _ => forall₂_congr fun id _ => imp_congr_right fun hmem => ?_
  rw [hkeeps, and_iff_left hmem]

end

/-- A genesis snapshot whose audit record, migration and report are its
graph, and another one on top of it. -/
def selfReferring : SnapshotEnvelope Digest :=
  ⟨.label "genesis", .label "graph", none, none, 0, some (.label "graph"), [.label "graph"],
    [.label "graph"]⟩

def selfReferringStore : List (Call Digest Digest) :=
  [.put (.label "graph"), .save selfReferring,
    .save ⟨.label "child", .label "graph", some (.label "genesis"), none, 1, none, [], []⟩]

/-- References to the graph of a retained snapshot are kept. -/
theorem collectGarbage_keeps_references_graph :
    ∃ collected,
      collectGarbage digestPlatform (GraphStore.after digestPlatform selfReferringStore)
        ⟨none, true, true⟩ {} 2 = .ok collected ∧
      (∀ id ∈ selfReferring.references, id ∈ collected.objects) ∧
      (MigrationCatalog.mk []).currentVersion digestPlatform collected.objects = .ok 0 := by
  obtain ⟨collected, hgc, hiff⟩ := @collectGarbage_keeps_references_iff _ _ _ digestPlatform
    Function.injective_id digestPlatform_roundTrips selfReferringStore ⟨none, true, true⟩
      {} 2 ⟨[]⟩ _
    rfl
  have hretained : selfReferring ∈ [selfReferring] := mem_singleton.2 rfl
  have hgraph : ∀ id ∈ selfReferring.references, id = .label "graph" := by decide
  have hkept := hiff.2 ⟨fun envelope hmem id hid _ => by
      obtain rfl := mem_singleton.1 hmem
      exact ⟨_, hretained, .inr (hgraph id hid)⟩,
    fun version id hversion hne => absurd (Except.ok.inj hversion).symm hne⟩
  refine ⟨collected, hgc, fun id hid => hkept.1 _ hretained id hid ?_, hkept.2⟩
  rw [hgraph id hid]
  decide

/-- A genesis snapshot with an audit record, in a store at version 1. -/
def auditedSnapshot : List (Call Digest Digest) :=
  [.put (.label "graph"), .put (.label "audit"), .put (.base 1),
    .save ⟨.label "genesis", .label "graph", none, none, 0, none, [.label "audit"], []⟩]

/-- The snapshot is retained, its audit record is gone and the store is
back at version 0. -/
theorem collectGarbage_loses_audit_and_version :
    (GraphStore.after digestPlatform auditedSnapshot).listSnapshots digestPlatform =
      .ok [⟨.label "genesis", .label "graph", none, none, 0, none, [.label "audit"], []⟩] ∧
    retained ⟨none, true, true⟩ {} 1
      (⟨.label "genesis", .label "graph", none, none, 0, none, [.label "audit"], []⟩ :
        SnapshotEnvelope Digest) = true ∧
    .label "audit" ∈ (GraphStore.after digestPlatform auditedSnapshot).objects ∧
    (MigrationCatalog.mk [⟨1⟩]).currentVersion digestPlatform
      (GraphStore.after digestPlatform auditedSnapshot).objects = .ok 1 ∧
    ∃ collected,
      collectGarbage digestPlatform (GraphStore.after digestPlatform auditedSnapshot)
        ⟨none, true, true⟩ {} 1 = .ok collected ∧
      .label "audit" ∉ collected.objects ∧
      (MigrationCatalog.mk [⟨1⟩]).currentVersion digestPlatform collected.objects = .ok 0 :=
  ⟨rfl, rfl, by decide, by decide, _, rfl, by decide, by decide⟩

end Ail.Storage
