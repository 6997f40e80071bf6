import Ail.Storage.GraphStore

/-!
# Retention and garbage collection

`retention.rs`: which snapshots a policy or a hold protects, the removal
of the others from the index, the set of objects the remaining ones need
and the removal of every other object. `collectGarbage` runs the four in
the documented order.

The collector knows an envelope's object only by encoding the envelope
again; that this is the object it was read from is where the codec and
the hash come in.
-/

namespace Ail.Storage

open Lib List

/-! ## Policy and holds -/

def millisPerDay : UInt64 := 86400000

def saturatingMul (a b : UInt64) : UInt64 :=
  if a.toNat * b.toNat < 2 ^ 64 then a * b else UInt64.ofNat (2 ^ 64 - 1)

def saturatingSub (a b : UInt64) : UInt64 := if b ≤ a then a - b else 0

structure RetentionPolicy where
  maxAgeDays : Option UInt64
  keepReleases : Bool
  keepTagged : Bool

def RetentionPolicy.isRetained {Oid : Type} (policy : RetentionPolicy)
    (snapshot : SnapshotEnvelope Oid) (nowMs : UInt64) : Bool :=
  if policy.keepReleases && snapshot.parentId.isNone then true
  else if policy.keepTagged && snapshot.appliedChangeId.isSome then true
  else match policy.maxAgeDays with
    | some maxDays =>
      decide (snapshot.createdAt ≥ saturatingSub nowMs (saturatingMul maxDays millisPerDay))
    | none => false

/-- Snapshots that survive whatever the policy says. -/
structure SnapshotHolds (Oid : Type) where
  branchHeads : List Oid := []
  tagLocks : List Oid := []
  auditHolds : List Oid := []

def SnapshotHolds.asSet {Oid : Type} (holds : SnapshotHolds Oid) : List Oid :=
  holds.branchHeads ++ holds.tagLocks ++ holds.auditHolds

section

variable {Oid Bytes : Type} [DecidableEq Oid] {reachable : List Oid}
  {envelope : SnapshotEnvelope Oid}

/-- Protected by the policy or by a hold. -/
def retained (policy : RetentionPolicy) (holds : SnapshotHolds Oid) (nowMs : UInt64)
    (snapshot : SnapshotEnvelope Oid) : Bool :=
  policy.isRetained snapshot nowMs || decide (snapshot.id ∈ holds.asSet)

variable (platform : Platform Oid Bytes)

/-! ## The passes -/

structure GcReport where
  snapshotsExamined : Nat
  snapshotsRemoved : Nat
  snapshotsRetained : Nat

structure ObjectGcReport where
  objectsExamined : Nat
  objectsDeleted : Nat
  bytesFreed : Nat

variable (retainedIds : List Oid)

/-- One round of the loop over the listed snapshots. -/
def gcUnreferencedStep (state : GraphStore Oid Bytes × GcReport) (snapshot : SnapshotEnvelope Oid) :
    GraphStore Oid Bytes × GcReport :=
  let (store, report) := state
  if snapshot.id ∈ retainedIds then
    (store, { report with snapshotsRetained := report.snapshotsRetained + 1 })
  else
    (store.deleteSnapshot snapshot.id,
      { report with snapshotsRemoved := report.snapshotsRemoved + 1 })

def gcUnreferenced (store : GraphStore Oid Bytes) (policy : RetentionPolicy)
    (holds : SnapshotHolds Oid) (nowMs : UInt64) :
    Except StorageError (GraphStore Oid Bytes × GcReport) := do
  let snapshots ← store.listSnapshots platform
  let retainedIds := (snapshots.filter (retained policy holds nowMs)).map (·.id)
  return snapshots.foldl (gcUnreferencedStep retainedIds)
    (store, ⟨snapshots.length, 0, 0⟩)

/-- The objects the retained snapshots need: the encoded envelope and the
graph. -/
def collectReachableObjectIdsForSnapshots :
    List (SnapshotEnvelope Oid) → Except StorageError (List Oid)
  | [] => .ok []
  | envelope :: rest => do
    let bytes ← platform.encodeSnapshot envelope
    let reachable ← collectReachableObjectIdsForSnapshots rest
    return platform.fromBytes bytes :: envelope.graphRootHash :: reachable

/-- One round of the loop over the stored objects. -/
def runGcStep (reachable : List Oid) (state : Objects Oid Bytes × ObjectGcReport) (id : Oid) :
    Objects Oid Bytes × ObjectGcReport :=
  let (objects, report) := state
  if id ∈ reachable then (objects, report)
  else match objects.lookup id with
    | none => (objects, report)
    | some bytes =>
      (objects.erase id, { report with
        objectsDeleted := report.objectsDeleted + 1
        bytesFreed := report.bytesFreed + platform.size bytes })

def runGc (objects : Objects Oid Bytes) (reachable : List Oid) :
    Objects Oid Bytes × ObjectGcReport :=
  let allIds := objects.listObjectIds platform
  allIds.foldl (runGcStep platform reachable) (objects, ⟨allIds.length, 0, 0⟩)

/-- The documented sequence. -/
def collectGarbage (store : GraphStore Oid Bytes) (policy : RetentionPolicy)
    (holds : SnapshotHolds Oid) (nowMs : UInt64) : Except StorageError (GraphStore Oid Bytes) := do
  let (store, _) ← gcUnreferenced platform store policy holds nowMs
  let retained ← store.listSnapshots platform
  let reachable ← collectReachableObjectIdsForSnapshots platform retained
  return { store with objects := (runGc platform store.objects reachable).1 }

/-! ## What each pass does -/

/-- What a list of snapshots keeps alive. -/
def Live (snapshots : List (SnapshotEnvelope Oid)) (id : Oid) : Prop :=
  ∃ envelope ∈ snapshots, IsCasId platform envelope id ∨ id = envelope.graphRootHash

/-- A store from which everything but the listed snapshots was collected. -/
structure Collected (store collected : GraphStore Oid Bytes)
    (kept : List (SnapshotEnvelope Oid)) : Prop where
  sound : collected.Sound platform
  listed : ∃ listed, collected.listSnapshots platform = .ok listed ∧ listed.Perm kept
  lookup_of_live : ∀ id, Live platform kept id →
    collected.objects.lookup id = store.objects.lookup id
  live_of_mem : ∀ id, id ∈ collected.objects → Live platform kept id

variable {platform}

theorem gcUnreferencedStep_fst (state : GraphStore Oid Bytes × GcReport)
    (snapshot : SnapshotEnvelope Oid) :
    (gcUnreferencedStep retainedIds state snapshot).1 =
      if snapshot.id ∈ retainedIds then state.1 else state.1.deleteSnapshot snapshot.id := by
  rw [gcUnreferencedStep]
  split <;> rfl

theorem foldl_gcUnreferencedStep (snapshots : List (SnapshotEnvelope Oid))
    (state : GraphStore Oid Bytes × GcReport) :
    (snapshots.foldl (gcUnreferencedStep retainedIds) state).1 = { state.1 with
      snapshotIndex := eraseAll ((snapshots.map (·.id)).filter (· ∉ retainedIds))
        state.1.snapshotIndex } := by
  induction snapshots generalizing state with
  | nil => rfl
  | cons snapshot rest ih =>
    rw [foldl_cons, ih, gcUnreferencedStep_fst, map_cons]
    by_cases hmem : snapshot.id ∈ retainedIds
    · rw [if_pos hmem, filter_cons_of_neg (by simpa using hmem)]
    · rw [if_neg hmem, filter_cons_of_pos (by simpa using hmem)]
      rfl

theorem runGcStep_fst (reachable : List Oid) (state : Objects Oid Bytes × ObjectGcReport)
    (id : Oid) :
    (runGcStep platform reachable state id).1 =
      if id ∈ reachable then state.1 else state.1.erase id := by
  dsimp only [runGcStep]
  split
  · rfl
  · split
    · rename_i hnone
      exact (AList.ext (kerase_of_notMem_keys (AList.lookup_eq_none.1 hnone))).symm
    · rfl

theorem foldl_runGcStep (reachable ids : List Oid) (state : Objects Oid Bytes × ObjectGcReport) :
    (ids.foldl (runGcStep platform reachable) state).1 =
      eraseAll (ids.filter (· ∉ reachable)) state.1 := by
  induction ids generalizing state with
  | nil => rfl
  | cons id rest ih =>
    rw [foldl_cons, ih, runGcStep_fst]
    by_cases hmem : id ∈ reachable
    · rw [if_pos hmem, filter_cons_of_neg (by simpa using hmem)]
    · rw [if_neg hmem, filter_cons_of_pos (by simpa using hmem)]
      rfl

theorem runGc_objects (objects : Objects Oid Bytes) (reachable : List Oid) (id : Oid) :
    (runGc platform objects reachable).1.lookup id =
      if id ∈ reachable then objects.lookup id else none := by
  rw [runGc, foldl_runGcStep, lookup_eraseAll]
  by_cases hreach : id ∈ reachable
  · simp [hreach]
  · by_cases hmem : id ∈ objects
    · have hlisted : id ∈ objects.listObjectIds platform :=
        (platform.iterate_perm _).mem_iff.2 (AList.mem_keys.1 hmem)
      simp [hlisted]
    · simp [AList.lookup_eq_none.2 hmem]

theorem mem_runGc {objects : Objects Oid Bytes} {id : Oid} :
    id ∈ (runGc platform objects reachable).1 ↔ id ∈ reachable ∧ id ∈ objects := by
  rw [← AList.lookup_isSome, runGc_objects, ← AList.lookup_isSome]
  split <;> simp [*]

variable {store : GraphStore Oid Bytes}

theorem sound_runGc (sound : store.Sound platform) (reachable : List Oid) :
    { store with objects := (runGc platform store.objects reachable).1 }.Sound platform := by
  rw [runGc, foldl_runGcStep]
  exact sound.eraseAll [] _

variable {snapshots : List (SnapshotEnvelope Oid)}

omit [DecidableEq Oid] in
theorem collectReachable_eq_ok
    (hcas : ∀ envelope ∈ snapshots, ∃ casId, IsCasId platform envelope casId) :
    ∃ reachable, collectReachableObjectIdsForSnapshots platform snapshots = .ok reachable ∧
      ∀ id, id ∈ reachable ↔ Live platform snapshots id := by
  induction snapshots with
  | nil => exact ⟨[], rfl, fun id => by simp [Live]⟩
  | cons envelope rest ih =>
    obtain ⟨_, bytes, hencode, -⟩ := hcas envelope (.head _)
    obtain ⟨reachable, hrest, hiff⟩ := ih fun e hmem => hcas e (.tail _ hmem)
    refine ⟨platform.fromBytes bytes :: envelope.graphRootHash :: reachable, ?_, fun id => ?_⟩
    · rw [collectReachableObjectIdsForSnapshots, hencode, hrest]
      rfl
    · have hown : IsCasId platform envelope id ↔ id = platform.fromBytes bytes := by
        rw [IsCasId, hencode]
        simp [eq_comm]
      rw [Live, exists_mem_cons_iff, hown, mem_cons, mem_cons, hiff, Live, or_assoc]

/-- The store after the first pass. -/
def prunedIndex (store : GraphStore Oid Bytes) (snapshots : List (SnapshotEnvelope Oid))
    (policy : RetentionPolicy) (holds : SnapshotHolds Oid) (nowMs : UInt64) :
    GraphStore Oid Bytes :=
  { store with snapshotIndex := eraseAll ((snapshots.map (·.id)).filter
      (· ∉ (snapshots.filter (retained policy holds nowMs)).map (·.id))) store.snapshotIndex }

theorem gcUnreferenced_eq_ok (hlist : store.listSnapshots platform = .ok snapshots)
    (policy : RetentionPolicy) (holds : SnapshotHolds Oid) (nowMs : UInt64) :
    ∃ report, gcUnreferenced platform store policy holds nowMs =
      .ok (prunedIndex store snapshots policy holds nowMs, report) := by
  rw [gcUnreferenced, hlist]
  exact ⟨_, congrArg Except.ok (Prod.ext (foldl_gcUnreferencedStep _ snapshots _) rfl)⟩

section

variable {policy : RetentionPolicy} {holds : SnapshotHolds Oid} {nowMs : UInt64}

theorem lookup_prunedIndex (hnodup : (snapshots.map (·.id)).Nodup) (hmem : envelope ∈ snapshots) :
    (prunedIndex store snapshots policy holds nowMs).snapshotIndex.lookup envelope.id =
      if retained policy holds nowMs envelope then store.snapshotIndex.lookup envelope.id
      else none := by
  have hkept : envelope.id ∈ (snapshots.filter (retained policy holds nowMs)).map (·.id) ↔
      retained policy holds nowMs envelope := by
    simp only [mem_map, mem_filter]
    constructor
    · rintro ⟨other, ⟨hother, hret⟩, hid⟩
      exact inj_on_of_nodup_map hnodup hother hmem hid ▸ hret
    · exact fun hret => ⟨envelope, ⟨hmem, hret⟩, rfl⟩
  have hdead : envelope.id ∈ (snapshots.map (·.id)).filter
      (· ∉ (snapshots.filter (retained policy holds nowMs)).map (·.id)) ↔
      ¬retained policy holds nowMs envelope := by
    rw [mem_filter, decide_eq_true_iff, hkept]
    exact and_iff_right (mem_map_of_mem hmem)
  rw [prunedIndex, lookup_eraseAll]
  simp only [hdead, ite_not]

theorem sound_prunedIndex (sound : store.Sound platform) :
    (prunedIndex store snapshots policy holds nowMs).Sound platform :=
  sound.eraseAll _ []

theorem lookup_of_lookup_prunedIndex {id casId : Oid}
    (hlookup : (prunedIndex store snapshots policy holds nowMs).snapshotIndex.lookup id =
      some casId) :
    store.snapshotIndex.lookup id = some casId := by
  rw [prunedIndex, lookup_eraseAll] at hlookup
  split at hlookup
  · cases hlookup
  · exact hlookup

variable (hinj : Function.Injective platform.fromBytes) (hround : platform.RoundTrips)
  (sound : store.Sound platform) (hlist : store.listSnapshots platform = .ok snapshots)
include hinj hround sound hlist

/-- The first pass leaves exactly the retained snapshots in the listing. -/
theorem mem_list_prunedIndex {remaining : List (SnapshotEnvelope Oid)}
    (hremaining : (prunedIndex store snapshots policy holds nowMs).listSnapshots platform =
      .ok remaining) :
    envelope ∈ remaining ↔ envelope ∈ snapshots ∧ retained policy holds nowMs envelope := by
  have hnodup := sound.nodup_listSnapshots hinj hround hlist
  rw [(sound_prunedIndex sound).mem_listSnapshots_iff hinj hround hremaining]
  constructor
  · rintro ⟨casId, hindex, hcas, hobject⟩
    have hmem : envelope ∈ snapshots := (sound.mem_listSnapshots_iff hinj hround hlist).2
      ⟨casId, lookup_of_lookup_prunedIndex hindex, hcas, hobject⟩
    rw [lookup_prunedIndex hnodup hmem] at hindex
    split at hindex
    · exact ⟨hmem, ‹_›⟩
    · cases hindex
  · rintro ⟨hmem, hret⟩
    obtain ⟨casId, hindex, hcas, hobject⟩ := (sound.mem_listSnapshots_iff hinj hround hlist).1 hmem
    refine ⟨casId, ?_, hcas, hobject⟩
    rw [lookup_prunedIndex hnodup hmem, if_pos hret, hindex]

/-- What the sequence computes on a store that can be listed. -/
theorem collectGarbage_eq_ok : ∃ remaining reachable,
      (prunedIndex store snapshots policy holds nowMs).listSnapshots platform = .ok remaining ∧
      (∀ id, id ∈ reachable ↔ Live platform remaining id) ∧
      collectGarbage platform store policy holds nowMs = .ok
        { prunedIndex store snapshots policy holds nowMs with
          objects := (runGc platform store.objects reachable).1 } := by
  obtain ⟨report, hgc⟩ := gcUnreferenced_eq_ok hlist policy holds nowMs
  have sound' := @sound_prunedIndex _ _ _ _ _ snapshots policy holds nowMs sound
  have hpresent := (sound.listSnapshots_ok_iff hinj hround).1 ⟨snapshots, hlist⟩
  obtain ⟨remaining, hremaining⟩ := (sound'.listSnapshots_ok_iff hinj hround).2
    fun id casId hindex => hpresent id casId (lookup_of_lookup_prunedIndex hindex)
  obtain ⟨reachable, hcollect, hlive⟩ := @collectReachable_eq_ok _ _ platform remaining
    fun envelope hmem => by
      obtain ⟨casId, -, hcas, -⟩ := (sound'.mem_listSnapshots_iff hinj hround hremaining).1 hmem
      exact ⟨casId, hcas⟩
  refine ⟨remaining, reachable, hremaining, hlive, ?_⟩
  simp only [collectGarbage, hgc, hremaining, hcollect, bind, Except.bind]
  rfl

/-- Dropping objects no listed snapshot needs does not change the listing. -/
theorem list_runGc (hlive : ∀ id, id ∈ reachable ↔ Live platform snapshots id) :
    ∃ listed, { store with objects := (runGc platform store.objects reachable).1 }.listSnapshots
      platform = .ok listed ∧ ∀ envelope, envelope ∈ listed ↔ envelope ∈ snapshots := by
  have sound' := sound_runGc sound reachable
  have hkept : ∀ {casId}, casId ∈ (runGc platform store.objects reachable).1 ↔
      casId ∈ reachable ∧ casId ∈ store.objects := fun {casId} => mem_runGc
  obtain ⟨listed, hlisted⟩ := (sound'.listSnapshots_ok_iff hinj hround).2 fun id casId hindex => by
    obtain ⟨envelope, rfl, hcas⟩ := sound.indexed id casId hindex
    have hobject := (sound.listSnapshots_ok_iff hinj hround).1 ⟨snapshots, hlist⟩ _ casId hindex
    have hmem := (sound.mem_listSnapshots_iff hinj hround hlist).2 ⟨casId, hindex, hcas, hobject⟩
    exact hkept.2 ⟨(hlive casId).2 ⟨envelope, hmem, .inl hcas⟩, hobject⟩
  refine ⟨listed, hlisted, fun envelope => ?_⟩
  rw [sound'.mem_listSnapshots_iff hinj hround hlisted]
  constructor
  · rintro ⟨casId, hindex, hcas, hobject⟩
    exact (sound.mem_listSnapshots_iff hinj hround hlist).2
      ⟨casId, hindex, hcas, (hkept.1 hobject).2⟩
  · intro hmem
    obtain ⟨casId, hindex, hcas, hobject⟩ := (sound.mem_listSnapshots_iff hinj hround hlist).1 hmem
    exact ⟨casId, hindex, hcas, hkept.2 ⟨(hlive casId).2 ⟨envelope, hmem, .inl hcas⟩, hobject⟩⟩

/-- The sequence never fails on a store that can be listed, and leaves the
retained snapshots with the objects they keep alive. -/
theorem collectGarbage_spec :
    ∃ collected, collectGarbage platform store policy holds nowMs = .ok collected ∧
      Collected platform store collected (snapshots.filter (retained policy holds nowMs)) := by
  obtain ⟨remaining, reachable, hremaining, hreachable, hgc⟩ :=
    @collectGarbage_eq_ok _ _ _ _ _ _ policy holds nowMs hinj hround sound hlist
  have hkept : ∀ envelope, envelope ∈ remaining ↔
      envelope ∈ snapshots.filter (retained policy holds nowMs) := fun envelope => by
    rw [mem_list_prunedIndex hinj hround sound hlist hremaining, mem_filter]
  have hlive : ∀ id, id ∈ reachable ↔
      Live platform (snapshots.filter (retained policy holds nowMs)) id := fun id => by
    rw [hreachable, Live, Live]
    simp [hkept]
  have sound' := @sound_prunedIndex _ _ _ _ _ snapshots policy holds nowMs sound
  have sound'' := sound_runGc sound' reachable
  obtain ⟨listed, hlisted, hiff⟩ := list_runGc hinj hround sound' hremaining hreachable
  have hperm : listed.Perm (snapshots.filter (retained policy holds nowMs)) := by
    refine (perm_ext_iff_of_nodup ?_ ?_).2 fun envelope => (hiff envelope).trans (hkept envelope)
    · exact (sound''.nodup_listSnapshots hinj hround hlisted).of_map
    · exact ((sound.nodup_listSnapshots hinj hround hlist).of_map).filter _
  refine ⟨_, hgc, sound'', ⟨listed, hlisted, hperm⟩, fun id hid => ?_, fun id hmem => ?_⟩
  · exact (runGc_objects store.objects reachable id).trans (if_pos ((hlive id).2 hid))
  · exact (hlive id).1 (mem_runGc.1 hmem).1

end

end

end Ail.Storage
