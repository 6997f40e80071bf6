import Ail.Change.Model
import Ail.Verify.Report

/-!
# Content-addressed objects

What a project stores (`ail-storage`, `object.rs` and `graph.rs`): every
object is a file named by the hash of its bytes. Snapshots, graphs,
changesets, log entries and reports share the one directory; each kind
of bytes decodes as that kind only, so an object is a tagged value here.

The hash is a parameter, over an abstract type of ids: no function into
32 bytes is injective, so what a proof needs of it is a hypothesis. The
last section gives a hash that has no collisions at all.
-/

namespace Ail.Storage

open Ail.Core Change Verify

inductive StorageError where
  | codec (message : String)
  | notFound
  deriving DecidableEq

/-- The state of the graph at one point in time. `id` is chosen by the
caller; it is not the hash of the envelope. -/
structure SnapshotEnvelope (Oid : Type) where
  id : Oid
  graphRootHash : Oid
  parentId : Option Oid
  appliedChangeId : Option Oid := none
  createdAt : UInt64
  verificationReportHash : Option Oid := none
  auditRecordIds : List Oid := []
  migrationMetadataIds : List Oid := []
  deriving DecidableEq

structure ChangeSetLogEntry (Oid : Type) where
  id : Oid
  baseSnapshotId : Oid
  payloadHash : Oid
  createdAt : UInt64

inductive StoredObject (Oid : Type) where
  | snapshot (envelope : SnapshotEnvelope Oid)
  | graph (graph : SemanticGraph)
  | changeset (changeset : CanonicalChangeSet)
  | logEntry (entry : ChangeSetLogEntry Oid)
  | report (report : VerificationReport) (verifiedProfile : String)

/-- What is ever hashed: the bytes of an object, a label made up for a
snapshot id, and the eight bytes of a changeset's base. -/
inductive Content (Oid : Type) where
  | object (object : StoredObject Oid)
  | label (text : String)
  | base (number : UInt64)

/-- Object ids: the hash that makes them, their hex form and the reading
of a text as an id, which fails exactly on a text that is not 64 hex
digits. -/
structure ObjectIds (Oid : Type) where
  hash : Content Oid → Oid
  toHex : Oid → String
  ofHex : String → Option Oid

namespace ObjectIds

variable {Oid : Type} (ids : ObjectIds Oid)

/-- The name of the file an object is stored in. -/
def object (object : StoredObject Oid) : Oid := ids.hash (.object object)

/-- The id of a snapshot that is called `text`. -/
def label (text : String) : Oid := ids.hash (.label text)

theorem object_injective {ids : ObjectIds Oid} (hinj : Function.Injective ids.hash) :
    Function.Injective ids.object :=
  fun _ _ heq => Content.object.inj (hinj heq)

end ObjectIds

/-! ## A hash without collisions -/

/-- Ids that remember what was hashed. -/
inductive Digest where
  | graph (graph : SemanticGraph)
  | changeset (changeset : CanonicalChangeSet)
  | report (report : VerificationReport) (verifiedProfile : String)
  | label (text : String)
  | base (number : UInt64)
  | logEntry (id baseSnapshotId payloadHash : Digest) (createdAt : UInt64)
  | snapshot (id graphRootHash parentId appliedChangeId : Digest) (createdAt : UInt64)
      (verificationReportHash auditRecordIds migrationMetadataIds : Digest)
  | absent
  | present (digest : Digest)
  | cons (head tail : Digest)
  deriving DecidableEq

namespace Digest

def ofOption : Option Digest → Digest
  | none => .absent
  | some digest => .present digest

def toOption : Digest → Option Digest
  | .present digest => some digest
  | _ => none

@[simp] theorem toOption_ofOption (digest : Option Digest) :
    (ofOption digest).toOption = digest := by
  cases digest <;> rfl

def ofList : List Digest → Digest
  | [] => .absent
  | head :: tail => .cons head (ofList tail)

def toList : Digest → List Digest
  | .cons head tail => head :: tail.toList
  | _ => []

@[simp] theorem toList_ofList (digests : List Digest) : (ofList digests).toList = digests := by
  induction digests with
  | nil => rfl
  | cons head tail ih => rw [ofList, toList, ih]

def ofContent : Content Digest → Digest
  | .object (.snapshot env) =>
    .snapshot env.id env.graphRootHash (ofOption env.parentId) (ofOption env.appliedChangeId)
      env.createdAt (ofOption env.verificationReportHash) (ofList env.auditRecordIds)
      (ofList env.migrationMetadataIds)
  | .object (.graph g) => .graph g
  | .object (.changeset cs) => .changeset cs
  | .object (.logEntry entry) =>
    .logEntry entry.id entry.baseSnapshotId entry.payloadHash entry.createdAt
  | .object (.report r profile) => .report r profile
  | .label text => .label text
  | .base number => .base number

/-- What was hashed, read back from the id. -/
def toContent : Digest → Option (Content Digest)
  | .snapshot id root parent applied createdAt r audit migration => some (.object (.snapshot
      ⟨id, root, parent.toOption, applied.toOption, createdAt, r.toOption, audit.toList,
        migration.toList⟩))
  | .graph g => some (.object (.graph g))
  | .changeset cs => some (.object (.changeset cs))
  | .logEntry id baseId payload createdAt =>
    some (.object (.logEntry ⟨id, baseId, payload, createdAt⟩))
  | .report r profile => some (.object (.report r profile))
  | .label text => some (.label text)
  | .base number => some (.base number)
  | .absent | .present _ | .cons _ _ => none

theorem toContent_ofContent (content : Content Digest) :
    (ofContent content).toContent = some content := by
  rcases content with object | text | number
  · cases object <;> simp [ofContent, toContent]
  · rfl
  · rfl

theorem ofContent_injective : Function.Injective ofContent := by
  intro first second heq
  have hback : (ofContent first).toContent = (ofContent second).toContent := by rw [heq]
  rw [toContent_ofContent, toContent_ofContent] at hback
  exact Option.some.inj hback

end Digest

end Ail.Storage
