import Ail.Lib.FiniteMap
import Ail.Lib.Outcome
import Ail.Storage.Object

/-!
# The object-backed snapshot store

`ObjectBackedGraphStore` (`graph.rs`) over the in-memory object store
(`backends/memory.rs`): raw bytes under their hash, and an index from the
id of a snapshot to the hash of its encoded envelope. The two are
separate maps, so an object can be gone while the index still names it.

The hash, the codec and the order in which a hash map is iterated come
from other crates. They are the fields of `Platform`; what a proof needs
of the first two is a hypothesis, and an iteration visits every entry
once. Locks and backend failures are left out.
-/

namespace Ail.Storage

open Lib AList

/-- What the store rests on. -/
structure Platform (Oid Bytes : Type) where
  fromBytes : Bytes → Oid
  size : Bytes → Nat
  encodeSnapshot : SnapshotEnvelope Oid → Except StorageError Bytes
  decodeSnapshot : Bytes → Except StorageError (SnapshotEnvelope Oid)
  encodeLogEntry : ChangeSetLogEntry Oid → Except StorageError Bytes
  encodeVersion : UInt32 → Except StorageError Bytes
  iterate : {α : Type} → List α → List α
  iterate_perm : ∀ {α : Type} (entries : List α), (iterate entries).Perm entries

namespace Platform

/-- What was encoded decodes to itself. -/
def RoundTrips {Oid Bytes : Type} (platform : Platform Oid Bytes) : Prop :=
  ∀ envelope bytes, platform.encodeSnapshot envelope = .ok bytes →
    platform.decodeSnapshot bytes = .ok envelope

end Platform

/-- Raw objects by their id. -/
abbrev Objects (Oid Bytes : Type) : Type := AList fun _ : Oid => Bytes

structure GraphStore (Oid Bytes : Type) where
  objects : Objects Oid Bytes
  snapshotIndex : AList fun _ : Oid => Oid

section

variable {Oid Bytes : Type} [DecidableEq Oid] (platform : Platform Oid Bytes) {id casId : Oid}
  {snapshots : List (SnapshotEnvelope Oid)}

/-! ## Objects -/

namespace Objects

/-- Bytes that are there already are not written again. -/
def put (objects : Objects Oid Bytes) (bytes : Bytes) : Objects Oid Bytes × Oid :=
  let id := platform.fromBytes bytes
  (if id ∈ objects then objects else objects.insert id bytes, id)

def listObjectIds (objects : Objects Oid Bytes) : List Oid := platform.iterate objects.keys

/-- Every object is stored under the hash of its bytes. -/
def Addressed (objects : Objects Oid Bytes) : Prop :=
  ∀ id bytes, objects.lookup id = some bytes → platform.fromBytes bytes = id

end Objects

/-! ## Snapshots -/

namespace GraphStore

def empty : GraphStore Oid Bytes := ⟨∅, ∅⟩

def saveSnapshot (store : GraphStore Oid Bytes) (value : SnapshotEnvelope Oid) :
    Except StorageError (GraphStore Oid Bytes × Oid) := do
  let bytes ← platform.encodeSnapshot value
  let (objects, casId) := store.objects.put platform bytes
  return (⟨objects, store.snapshotIndex.insert value.id casId⟩, value.id)

def loadSnapshot (store : GraphStore Oid Bytes) (id : Oid) :
    Except StorageError (Option (SnapshotEnvelope Oid)) :=
  match store.snapshotIndex.lookup id with
  | none => .ok none
  | some casId =>
    match store.objects.lookup casId with
    | none => .ok none
    | some bytes => platform.decodeSnapshot bytes >>= fun snapshot => .ok (some snapshot)

def appendChangesetLog (store : GraphStore Oid Bytes) (entry : ChangeSetLogEntry Oid) :
    Except StorageError (GraphStore Oid Bytes × Oid) := do
  let bytes ← platform.encodeLogEntry entry
  let (objects, casId) := store.objects.put platform bytes
  return (⟨objects, store.snapshotIndex⟩, casId)

/-- The envelope an index entry leads to. A missing object is reported
as corruption, unlike in `loadSnapshot`. -/
def readIndexed (objects : Objects Oid Bytes) (casId : Oid) :
    Except StorageError (SnapshotEnvelope Oid) :=
  match objects.lookup casId with
  | none => .error .notFound
  | some bytes => platform.decodeSnapshot bytes

def listSnapshots (store : GraphStore Oid Bytes) :
    Except StorageError (List (SnapshotEnvelope Oid)) :=
  (platform.iterate store.snapshotIndex.entries).mapM fun entry =>
    readIndexed platform store.objects entry.2

/-- Only the index forgets the snapshot; its bytes stay. -/
def deleteSnapshot (store : GraphStore Oid Bytes) (id : Oid) : GraphStore Oid Bytes :=
  { store with snapshotIndex := store.snapshotIndex.erase id }

end GraphStore

/-! ## Consistency of index and objects -/

/-- The id under which the encoded envelope is stored. -/
def IsCasId (envelope : SnapshotEnvelope Oid) (casId : Oid) : Prop :=
  ∃ bytes, platform.encodeSnapshot envelope = .ok bytes ∧ platform.fromBytes bytes = casId

namespace Objects

variable {platform}

theorem addressed_empty : Addressed platform (∅ : Objects Oid Bytes) := by
  intro id bytes hlookup
  cases hlookup

variable {objects : Objects Oid Bytes}

theorem mem_put {bytes : Bytes} :
    id ∈ (objects.put platform bytes).1 ↔ id = platform.fromBytes bytes ∨ id ∈ objects := by
  dsimp only [put]
  split
  · exact ⟨Or.inr, fun h => h.elim (fun heq => heq ▸ ‹_›) fun hmem => hmem⟩
  · exact mem_insert _

theorem Addressed.put (haddr : Addressed platform objects) (bytes : Bytes) :
    Addressed platform (objects.put platform bytes).1 := by
  intro id stored hlookup
  dsimp only [Objects.put] at hlookup
  split at hlookup
  · exact haddr id stored hlookup
  · by_cases heq : id = platform.fromBytes bytes
    · subst heq
      rw [lookup_insert] at hlookup
      rw [← Option.some.inj hlookup]
    · rw [lookup_insert_ne heq] at hlookup
      exact haddr id stored hlookup

theorem Addressed.eraseAll (haddr : Addressed platform objects) (ids : List Oid) :
    Addressed platform (eraseAll ids objects) := by
  intro id stored hlookup
  rw [lookup_eraseAll] at hlookup
  split at hlookup
  · cases hlookup
  · exact haddr id stored hlookup

end Objects

namespace GraphStore

/-- The index names encoded envelopes, each under its own id. Nothing
says that the object is still there. -/
structure Sound (store : GraphStore Oid Bytes) : Prop where
  addressed : store.objects.Addressed platform
  indexed : ∀ id casId, store.snapshotIndex.lookup id = some casId →
    ∃ envelope, envelope.id = id ∧ IsCasId platform envelope casId

/-- Every object the index names is there. -/
def Complete (store : GraphStore Oid Bytes) : Prop :=
  ∀ id casId, store.snapshotIndex.lookup id = some casId → casId ∈ store.objects

variable {platform}

theorem complete_empty : Complete (empty : GraphStore Oid Bytes) := by
  intro id casId hlookup
  cases hlookup

theorem sound_empty : Sound platform (empty : GraphStore Oid Bytes) :=
  ⟨Objects.addressed_empty, fun id casId hlookup => by
    rw [empty] at hlookup
    exact nomatch hlookup⟩

namespace Sound

variable {store store' : GraphStore Oid Bytes}

variable (sound : Sound platform store)
include sound

theorem saveSnapshot {value : SnapshotEnvelope Oid}
    (hsave : store.saveSnapshot platform value = .ok (store', id)) : Sound platform store' := by
  obtain ⟨bytes, hencode, heq⟩ := bind_eq_ok.1 hsave
  cases heq
  refine ⟨sound.addressed.put bytes, fun id casId hlookup => ?_⟩
  by_cases hid : id = value.id
  · subst hid
    rw [lookup_insert] at hlookup
    exact ⟨value, rfl, bytes, hencode, Option.some.inj hlookup⟩
  · rw [lookup_insert_ne hid] at hlookup
    exact sound.indexed id casId hlookup

theorem appendChangesetLog {entry : ChangeSetLogEntry Oid}
    (happend : store.appendChangesetLog platform entry = .ok (store', id)) :
    Sound platform store' := by
  obtain ⟨bytes, -, heq⟩ := bind_eq_ok.1 happend
  cases heq
  exact ⟨sound.addressed.put bytes, sound.indexed⟩

/-- Forgetting snapshots and dropping objects, whichever they are. -/
theorem eraseAll (snapshotIds objectIds : List Oid) :
    Sound platform ⟨eraseAll objectIds store.objects,
      eraseAll snapshotIds store.snapshotIndex⟩ := by
  refine ⟨sound.addressed.eraseAll objectIds, fun id casId hlookup => ?_⟩
  rw [lookup_eraseAll] at hlookup
  split at hlookup
  · cases hlookup
  · exact sound.indexed id casId hlookup

section

variable (hinj : Function.Injective platform.fromBytes) (hround : platform.RoundTrips)
include hinj hround

variable {envelope : SnapshotEnvelope Oid}

/-- What is stored under the id of an envelope decodes to it. -/
theorem readIndexed_eq (hcas : IsCasId platform envelope casId) (hmem : casId ∈ store.objects) :
    readIndexed platform store.objects casId = .ok envelope := by
  obtain ⟨stored, hlookup⟩ := Option.isSome_iff_exists.1 (lookup_isSome.2 hmem)
  obtain ⟨bytes, hencode, hhash⟩ := hcas
  have hbytes : stored = bytes := hinj ((sound.addressed casId stored hlookup).trans hhash.symm)
  rw [readIndexed, hlookup, hbytes]
  exact hround envelope bytes hencode

theorem loadSnapshot_eq (hindex : store.snapshotIndex.lookup envelope.id = some casId)
    (hcas : IsCasId platform envelope casId) (hmem : casId ∈ store.objects) :
    store.loadSnapshot platform envelope.id = .ok (some envelope) := by
  have hread := sound.readIndexed_eq hinj hround hcas hmem
  rw [readIndexed] at hread
  rw [loadSnapshot, hindex]
  dsimp only
  split at hread
  · cases hread
  · rw [hread]
    rfl

/-- An index entry that can be read is read as the envelope it was
written for. -/
theorem of_readIndexed (hindex : store.snapshotIndex.lookup id = some casId)
    (hread : readIndexed platform store.objects casId = .ok envelope) :
    envelope.id = id ∧ IsCasId platform envelope casId ∧ casId ∈ store.objects := by
  obtain ⟨written, hid, hcas⟩ := sound.indexed id casId hindex
  have hmem : casId ∈ store.objects := by
    rw [← lookup_isSome, Option.isSome_iff_ne_none]
    intro hnone
    rw [readIndexed, hnone] at hread
    cases hread
  rw [sound.readIndexed_eq hinj hround hcas hmem] at hread
  cases hread
  exact ⟨hid, hcas, hmem⟩

/-- The store can be listed unless an object the index names is gone. -/
theorem listSnapshots_ok_iff :
    (∃ snapshots, store.listSnapshots platform = .ok snapshots) ↔ store.Complete := by
  rw [listSnapshots, exists_mapM_eq_ok_iff]
  constructor
  · intro hall id casId hindex
    have hentry := (platform.iterate_perm _).mem_iff.2 (mem_lookup_iff.1 hindex)
    obtain ⟨envelope, hread⟩ := hall ⟨id, casId⟩ hentry
    exact (sound.of_readIndexed hinj hround hindex hread).2.2
  · rintro hall ⟨id, casId⟩ hentry
    have hindex := mem_lookup_iff.2 ((platform.iterate_perm _).mem_iff.1 hentry)
    obtain ⟨envelope, -, hcas⟩ := sound.indexed id casId hindex
    exact ⟨envelope, sound.readIndexed_eq hinj hround hcas (hall id casId hindex)⟩

theorem mem_listSnapshots_iff (hlist : store.listSnapshots platform = .ok snapshots) :
    envelope ∈ snapshots ↔ ∃ casId, store.snapshotIndex.lookup envelope.id = some casId ∧
      IsCasId platform envelope casId ∧ casId ∈ store.objects := by
  constructor
  · intro hmem
    obtain ⟨⟨id, casId⟩, hentry, hread⟩ := exists_mem_of_mapM_eq_ok hlist hmem
    have hindex := mem_lookup_iff.2 ((platform.iterate_perm _).mem_iff.1 hentry)
    obtain ⟨rfl, hcas, hobject⟩ := sound.of_readIndexed hinj hround hindex hread
    exact ⟨casId, hindex, hcas, hobject⟩
  · rintro ⟨casId, hindex, hcas, hobject⟩
    have hentry := (platform.iterate_perm _).mem_iff.2 (mem_lookup_iff.1 hindex)
    obtain ⟨found, hmem, hread⟩ := exists_mem_of_mem_of_mapM_eq_ok hlist hentry
    rw [sound.readIndexed_eq hinj hround hcas hobject] at hread
    exact Except.ok.inj hread ▸ hmem

/-- No two listed snapshots share an id. -/
theorem nodup_listSnapshots (hlist : store.listSnapshots platform = .ok snapshots) :
    (snapshots.map (·.id)).Nodup := by
  have hids : snapshots.map (·.id) =
      (platform.iterate store.snapshotIndex.entries).map Sigma.fst := by
    refine map_eq_of_mapM_eq_ok hlist fun entry hentry envelope hread => ?_
    have hindex := mem_lookup_iff.2 ((platform.iterate_perm _).mem_iff.1 hentry)
    exact (sound.of_readIndexed hinj hround hindex hread).1
  rw [hids, ((platform.iterate_perm _).map _).nodup_iff]
  exact store.snapshotIndex.keys_nodup

end

end Sound

end GraphStore

end

/-! ## A platform without collisions -/

/-- Bytes are their own hash; maps are iterated backwards. -/
def digestPlatform : Platform Digest Digest where
  fromBytes := id
  size _ := 1
  encodeSnapshot envelope := .ok (Digest.ofContent (.object (.snapshot envelope)))
  decodeSnapshot bytes :=
    match bytes.toContent with
    | some (.object (.snapshot envelope)) => .ok envelope
    | _ => .error (.codec "not a snapshot envelope")
  encodeLogEntry entry := .ok (Digest.ofContent (.object (.logEntry entry)))
  encodeVersion version := .ok (Digest.ofContent (.base version.toUInt64))
  iterate := List.reverse
  iterate_perm := List.reverse_perm

theorem digestPlatform_roundTrips : digestPlatform.RoundTrips := by
  intro envelope bytes hencode
  cases hencode
  simp [digestPlatform, Digest.toContent_ofContent]

end Ail.Storage
