import Ail.Lib.FiniteMap
import Ail.Storage.Object

/-!
# Assumptions and the verification gate

`approval.rs`: assumptions are stored under their ids, in memory or as
objects, and the gate fails on those that are expired or revoked.

Both stores keep the record that came first under an id. A record stored
later, such as one that revokes the assumption, is dropped, so the gate
answers for the first records of a history and not for the last.
-/

namespace Ail.Storage

open Lib List

inductive AssumptionStatus where
  | active | expired | revoked
  deriving DecidableEq

structure AssumptionRecord (Oid : Type) where
  id : Oid
  boundaryId : Oid
  status : AssumptionStatus
  expiresAt : Option UInt64
  owner : String
  deriving DecidableEq

inductive VerificationGateResult (Oid : Type) where
  | pass
  | fail (failedAssumptionIds : List Oid)
  deriving DecidableEq

variable {Oid : Type}

/-- The test of the gate. -/
def AssumptionRecord.offends (nowMs : Option UInt64) (record : AssumptionRecord Oid) : Bool :=
  if record.status = .expired ∨ record.status = .revoked then true
  else match record.expiresAt, nowMs with
    | some expiresAt, some now => now ≥ expiresAt
    | _, _ => false

variable [LinearOrder Oid]

def evaluateVerificationGate (assumptions : List (AssumptionRecord Oid)) (nowMs : Option UInt64) :
    VerificationGateResult Oid :=
  let failed := (assumptions.filter (·.offends nowMs)).map (·.id)
  if failed = [] then .pass else .fail (failed.insertionSort (· ≤ ·))

/-- Ids of a record and what is kept under them. -/
abbrev ByRecord (Oid α : Type) := AList fun _ : Oid => α

def sortRecords (records : List (AssumptionRecord Oid)) : List (AssumptionRecord Oid) :=
  records.insertionSort fun a b => a.id ≤ b.id

/-! ## The two stores -/

namespace AssumptionRegistry

variable (registry : ByRecord Oid (AssumptionRecord Oid))

def storeAssumption (record : AssumptionRecord Oid) : ByRecord Oid (AssumptionRecord Oid) :=
  orInsert registry record.id record

def listAssumptions : List (AssumptionRecord Oid) :=
  sortRecords (registry.entries.map (·.2))

/-- The registry after a history of writes. -/
def afterStores (history : List (AssumptionRecord Oid)) : ByRecord Oid (AssumptionRecord Oid) :=
  history.foldl storeAssumption ∅

end AssumptionRegistry

/-- CBOR and the hash that names an object. -/
structure RecordCodec (Oid Bytes : Type) where
  encode : AssumptionRecord Oid → Bytes
  decode : Bytes → Except StorageError (AssumptionRecord Oid)
  hash : Bytes → Oid

/-- The records are read back as they were written, and no two of their
objects have one name. -/
structure RecordCodec.Faithful {Bytes : Type} (codec : RecordCodec Oid Bytes)
    (records : List (AssumptionRecord Oid)) : Prop where
  decode_encode : ∀ record ∈ records, codec.decode (codec.encode record) = .ok record
  encode_eq : ∀ first ∈ records, ∀ second ∈ records,
    codec.hash (codec.encode first) = codec.hash (codec.encode second) →
      codec.encode first = codec.encode second

structure ObjectBackedAssumptionStore (Oid Bytes : Type) where
  store : ByRecord Oid Bytes := ∅
  index : ByRecord Oid Oid := ∅

namespace ObjectBackedAssumptionStore

variable {Bytes : Type} (codec : RecordCodec Oid Bytes)

variable (backed : ObjectBackedAssumptionStore Oid Bytes)

def storeAssumption (record : AssumptionRecord Oid) : ObjectBackedAssumptionStore Oid Bytes :=
  let bytes := codec.encode record
  { store := backed.store.insert (codec.hash bytes) bytes
    index := orInsert backed.index record.id (codec.hash bytes) }

def listAssumptions : Except StorageError (List (AssumptionRecord Oid)) :=
  ((backed.index.entries.filterMap fun entry => backed.store.lookup entry.2).mapM codec.decode).map
    sortRecords

def afterStores (history : List (AssumptionRecord Oid)) : ObjectBackedAssumptionStore Oid Bytes :=
  history.foldl (storeAssumption codec) {}

end ObjectBackedAssumptionStore

/-! ## Histories -/

def firstStored (history : List (AssumptionRecord Oid)) (id : Oid) :
    Option (AssumptionRecord Oid) :=
  history.find? (·.id = id)

def lastStored (history : List (AssumptionRecord Oid)) (id : Oid) : Option (AssumptionRecord Oid) :=
  history.reverse.find? (·.id = id)

theorem firstStored_concat (history : List (AssumptionRecord Oid)) (record : AssumptionRecord Oid)
    (id : Oid) : firstStored (history ++ [record]) id =
      (firstStored history id).or (if id = record.id then some record else none) := by
  rw [firstStored, find?_append, ← firstStored]
  simp [@eq_comm _ record.id]

theorem AssumptionRegistry.lookup_afterStores (history : List (AssumptionRecord Oid)) (id : Oid) :
    (afterStores history).lookup id = firstStored history id := by
  induction history using List.reverseRecOn with
  | nil => rfl
  | append_singleton history record ih =>
    rw [afterStores, foldl_append, ← afterStores, firstStored_concat]
    exact (lookup_orInsert _ _ _ _).trans (by rw [ih])

theorem AssumptionRegistry.mem_listAssumptions (history : List (AssumptionRecord Oid))
    (record : AssumptionRecord Oid) :
    record ∈ listAssumptions (afterStores history) ↔
      ∃ id, firstStored history id = some record := by
  simp [listAssumptions, sortRecords, ← lookup_afterStores, ← Option.mem_def, AList.mem_lookup_iff]

variable {record : AssumptionRecord Oid}

namespace ObjectBackedAssumptionStore

variable {Bytes : Type} {codec : RecordCodec Oid Bytes}

theorem lookup_index (history : List (AssumptionRecord Oid)) (id : Oid) :
    (afterStores codec history).index.lookup id =
      (firstStored history id).map fun record => codec.hash (codec.encode record) := by
  induction history using List.reverseRecOn with
  | nil => rfl
  | append_singleton history record ih =>
    rw [afterStores, foldl_append, ← afterStores, firstStored_concat]
    refine (lookup_orInsert _ _ _ _).trans ?_
    rw [ih]
    cases firstStored history id with
    | some _ => rfl
    | none => simp

variable {history : List (AssumptionRecord Oid)} (faithful : codec.Faithful history)

include faithful

theorem lookup_store {earlier : List (AssumptionRecord Oid)} (hearlier : earlier ⊆ history)
    (hmem : record ∈ earlier) :
    (afterStores codec earlier).store.lookup (codec.hash (codec.encode record)) =
      some (codec.encode record) := by
  induction earlier using List.reverseRecOn with
  | nil => cases hmem
  | append_singleton earlier added ih =>
    obtain ⟨hbefore, hadded⟩ := append_subset.1 hearlier
    rw [afterStores, foldl_append]
    by_cases hsame : codec.hash (codec.encode record) = codec.hash (codec.encode added)
    · rw [faithful.encode_eq record (hearlier hmem) added (by simpa using hadded) hsame]
      exact AList.lookup_insert _
    · refine (AList.lookup_insert_ne hsame).trans (ih hbefore ?_)
      rcases mem_append.1 hmem with hmem | hmem
      · exact hmem
      · exact absurd (by rw [mem_singleton.1 hmem]) hsame

/-- The objects of the index are read back without an error. -/
theorem listAssumptions_afterStores :
    ∃ records, listAssumptions codec (afterStores codec history) = .ok records ∧
      ∀ record, record ∈ records ↔ ∃ id, firstStored history id = some record := by
  have hentry : ∀ entry ∈ (afterStores codec history).index.entries, ∃ record,
      firstStored history entry.1 = some record ∧
        (afterStores codec history).store.lookup entry.2 = some (codec.encode record) := by
    intro entry hentry
    have hlookup := AList.mem_lookup_iff.2 hentry
    rw [lookup_index] at hlookup
    obtain ⟨record, hfirst, heq⟩ := Option.map_eq_some_iff.1 hlookup
    exact ⟨record, hfirst, heq ▸ lookup_store faithful (List.Subset.refl _)
      (mem_of_find?_eq_some hfirst)⟩
  have hread : ∀ entries : List (Sigma fun _ : Oid => Oid),
      (∀ entry ∈ entries, ∃ record, firstStored history entry.1 = some record ∧
        (afterStores codec history).store.lookup entry.2 = some (codec.encode record)) →
      ∃ records, (entries.filterMap fun entry =>
          (afterStores codec history).store.lookup entry.2).mapM codec.decode = .ok records ∧
        ∀ record, record ∈ records ↔ ∃ entry ∈ entries, firstStored history entry.1 =
          some record := by
    intro entries hentries
    induction entries with
    | nil => exact ⟨[], rfl, by simp⟩
    | cons entry entries ih =>
      obtain ⟨first, hfirst, hbytes⟩ := hentries entry (.head _)
      obtain ⟨records, hrecords, hmem⟩ := ih fun other h => hentries other (.tail _ h)
      refine ⟨first :: records, ?_, fun record => ?_⟩
      · have hdecode := faithful.decode_encode first (mem_of_find?_eq_some hfirst)
        simp only [filterMap_cons, hbytes, mapM_cons, hdecode, hrecords]
        rfl
      · rw [mem_cons, hmem, exists_mem_cons_iff, hfirst, Option.some.injEq, eq_comm]
  obtain ⟨records, hrecords, hmem⟩ := hread _ hentry
  refine ⟨sortRecords records, by rw [listAssumptions, hrecords]; rfl, fun record => ?_⟩
  rw [sortRecords, mem_insertionSort, hmem]
  constructor
  · exact fun ⟨entry, _, hfirst⟩ => ⟨entry.1, hfirst⟩
  · intro ⟨id, hfirst⟩
    have hlookup := @lookup_index _ _ _ codec history id
    rw [hfirst] at hlookup
    exact ⟨⟨id, _⟩, AList.mem_lookup_iff.1 hlookup, hfirst⟩

end ObjectBackedAssumptionStore

/-! ## The gate after a history -/

/-- The gate answers for the last record of every id. -/
structure ClosesGate (listed history : List (AssumptionRecord Oid)) (now : UInt64) : Prop where
  fails : ∀ id record, lastStored history id = some record → record.offends (some now) = true →
    ∃ failed, evaluateVerificationGate listed (some now) = .fail failed ∧ id ∈ failed
  passes : (∀ id record, lastStored history id = some record → record.offends (some now) = false) →
    evaluateVerificationGate listed (some now) = .pass

/-- The first record of an id offends where its last one does, and if no
last one does, no first one does. -/
structure FirstsOffend (history : List (AssumptionRecord Oid)) (now : UInt64) : Prop where
  fails : ∀ id first last, firstStored history id = some first → lastStored history id = some last →
    last.offends (some now) = true → first.offends (some now) = true
  passes : (∀ id last, lastStored history id = some last → last.offends (some now) = false) →
    ∀ id first, firstStored history id = some first → first.offends (some now) = false

theorem evaluateVerificationGate_eq_pass (assumptions : List (AssumptionRecord Oid))
    (nowMs : Option UInt64) : evaluateVerificationGate assumptions nowMs = .pass ↔
      ∀ record ∈ assumptions, record.offends nowMs = false := by
  simp only [evaluateVerificationGate]
  split
  next hnone => simpa using hnone
  next hsome => simpa using hsome

theorem mem_evaluateVerificationGate (assumptions : List (AssumptionRecord Oid))
    (nowMs : Option UInt64) (id : Oid) :
    (∃ failed, evaluateVerificationGate assumptions nowMs = .fail failed ∧ id ∈ failed) ↔
      ∃ record ∈ assumptions, record.id = id ∧ record.offends nowMs = true := by
  have hmem : id ∈ (assumptions.filter (·.offends nowMs)).map (·.id) ↔
      ∃ record ∈ assumptions, record.id = id ∧ record.offends nowMs = true := by
    simp only [mem_map, mem_filter]
    exact ⟨fun ⟨r, ⟨h, ho⟩, heq⟩ => ⟨r, h, heq, ho⟩, fun ⟨r, h, heq, ho⟩ => ⟨r, ⟨h, ho⟩, heq⟩⟩
  rw [← hmem]
  simp only [evaluateVerificationGate]
  split
  next hnone => simp [hnone]
  next => simp

variable {history : List (AssumptionRecord Oid)} {id : Oid}

theorem firstStored_id (hfirst : firstStored history id = some record) : record.id = id := by
  simpa using find?_some hfirst

/-- An id that was stored at all has a first record. -/
theorem exists_firstStored {last : AssumptionRecord Oid}
    (hlast : lastStored history id = some last) : ∃ first, firstStored history id = some first := by
  have hmem := mem_reverse.1 (mem_of_find?_eq_some hlast)
  refine Option.isSome_iff_exists.1 (find?_isSome.2 ⟨last, hmem, ?_⟩)
  simpa using find?_some hlast

theorem closesGate_iff {listed : List (AssumptionRecord Oid)}
    (hlisted : ∀ record, record ∈ listed ↔ ∃ id, firstStored history id = some record)
    (now : UInt64) : ClosesGate listed history now ↔ FirstsOffend history now := by
  have hpass : evaluateVerificationGate listed (some now) = .pass ↔
      ∀ id first, firstStored history id = some first → first.offends (some now) = false := by
    rw [evaluateVerificationGate_eq_pass]
    exact ⟨fun h id first hfirst => h first ((hlisted first).2 ⟨id, hfirst⟩),
      fun h record hrecord => ((hlisted record).1 hrecord).elim fun id hfirst => h id record hfirst⟩
  constructor
  · intro hcloses
    refine ⟨fun id first last hfirst hlast hoffends => ?_,
      fun hnone => hpass.1 (hcloses.passes hnone)⟩
    obtain ⟨record, hrecord, hid, hrecordOffends⟩ :=
      (mem_evaluateVerificationGate _ _ _).1 (hcloses.fails id last hlast hoffends)
    obtain ⟨id', hfirst'⟩ := (hlisted record).1 hrecord
    rw [← firstStored_id hfirst', hid, hfirst] at hfirst'
    exact Option.some.inj hfirst' ▸ hrecordOffends
  · intro hfirsts
    refine ⟨fun id last hlast hoffends => ?_, fun hnone => hpass.2 (hfirsts.passes hnone)⟩
    obtain ⟨first, hfirst⟩ := exists_firstStored hlast
    exact (mem_evaluateVerificationGate _ _ _).2 ⟨first, (hlisted first).2 ⟨id, hfirst⟩,
      firstStored_id hfirst, hfirsts.fails id first last hfirst hlast hoffends⟩

/-- After every history of writes and at every time, the gate of either
store answers for the last records exactly if the first ones offend where
they do. -/
theorem gate_answers_for_last_iff {Bytes : Type} {codec : RecordCodec Oid Bytes}
    {history : List (AssumptionRecord Oid)} (faithful : codec.Faithful history) (now : UInt64) :
    (ClosesGate (AssumptionRegistry.listAssumptions (AssumptionRegistry.afterStores history))
        history now ↔ FirstsOffend history now) ∧
    ∃ records, ObjectBackedAssumptionStore.listAssumptions codec
        (ObjectBackedAssumptionStore.afterStores codec history) = .ok records ∧
      (ClosesGate records history now ↔ FirstsOffend history now) := by
  obtain ⟨records, hlist, hrecords⟩ :=
    ObjectBackedAssumptionStore.listAssumptions_afterStores faithful
  exact ⟨closesGate_iff (AssumptionRegistry.mem_listAssumptions history) now, records, hlist,
    closesGate_iff hrecords now⟩

/-! ### An assumption that is revoked -/

def assumed (status : AssumptionStatus) : AssumptionRecord Nat := ⟨0, 1, status, none, "team"⟩

/-- Such records differ in their status only. -/
def statusCodec : RecordCodec Nat AssumptionStatus where
  encode record := record.status
  decode status := .ok (assumed status)
  hash status := if status = .active then 0 else if status = .expired then 1 else 2

theorem statusCodec_faithful (statuses : List AssumptionStatus) :
    statusCodec.Faithful (statuses.map assumed) where
  decode_encode record hmem := by
    obtain ⟨status, -, rfl⟩ := mem_map.1 hmem
    rfl
  encode_eq first _ second _ hsame := by
    revert hsame
    simp only [statusCodec]
    cases first.status <;> cases second.status <;> decide

/-- An assumption that was stored as revoked closes the gate. -/
theorem gate_answers_for_last_revoked :
    ClosesGate (AssumptionRegistry.listAssumptions (AssumptionRegistry.afterStores
      [assumed .revoked])) [assumed .revoked] 0 := by
  refine (gate_answers_for_last_iff (statusCodec_faithful [.revoked]) 0).1.2
    ⟨fun id first last hfirst hlast hoffends => ?_,
      fun hnone id first hfirst => hnone id first hfirst⟩
  rw [show first = last from Option.some.inj (hfirst.symm.trans hlast)]
  exact hoffends

/-- An assumption that is revoked later stays active, in either store. -/
theorem revocation_is_dropped :
    lastStored [assumed .active, assumed .revoked] 0 = some (assumed .revoked) ∧
    evaluateVerificationGate (AssumptionRegistry.listAssumptions
      (AssumptionRegistry.afterStores [assumed .active, assumed .revoked])) (some 0) = .pass ∧
    (ObjectBackedAssumptionStore.listAssumptions statusCodec
      (ObjectBackedAssumptionStore.afterStores statusCodec
        [assumed .active, assumed .revoked])).map (evaluateVerificationGate · (some 0)) =
          .ok .pass ∧
    ¬ ClosesGate (AssumptionRegistry.listAssumptions (AssumptionRegistry.afterStores
      [assumed .active, assumed .revoked])) [assumed .active, assumed .revoked] 0 := by
  have hpass : evaluateVerificationGate (AssumptionRegistry.listAssumptions
      (AssumptionRegistry.afterStores [assumed .active, assumed .revoked])) (some 0) = .pass := by
    decide
  refine ⟨by decide, hpass, by rfl, fun hcloses => ?_⟩
  obtain ⟨failed, hfail, -⟩ := hcloses.fails 0 (assumed .revoked) (by decide) (by decide)
  cases hfail

end Ail.Storage
