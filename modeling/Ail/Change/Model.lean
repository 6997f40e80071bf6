import Ail.Core.Validation

/-!
# Canonical changesets

The value types of the change language after canonicalization
(`ail-change`, `model.rs` and `canonical/model.rs`): the graph mutation
an op carries, the preconditions checked before the first op, and the
outcomes of an application.

A payload addresses nodes in one of two ways, by `NodeRef` or by stable
graph name; `BlockHash` is a 32-byte digest, here its list of bytes.
-/

namespace Ail.Change

open Ail.Core

/-- Identity of a graph snapshot, a `u64`. -/
structure SnapshotId where
  val : UInt64
  deriving DecidableEq

/-- A blake3 digest. -/
structure BlockHash where
  bytes : List UInt8
  deriving DecidableEq

/-- Seconds since the epoch. -/
structure Timestamp where
  val : UInt64
  deriving DecidableEq

structure CanonicalMeta where
  author : String
  description : String
  timestamp : Timestamp
  deriving DecidableEq

/-- The operation classes, grouped by canonical phase. -/
inductive ChangeSetOp where
  | create
  | set | add | remove | delete | disconnect | rename | move | replace
  | connect | bind | expose | hide | grant | revoke
  | infer | derive | generate
  | assert | lock | refactor | migrate | approve | reject | deprecate | annotate | verify
  deriving DecidableEq

/-- The concrete graph mutation of one op. -/
inductive OpPayload where
  | createNode (node : GraphNode)
  | addEdge (edge : GraphEdge)
  | removeNode (nodeId : NodeRef)
  | setNodeName (nodeId : NodeRef) (name : String)
  | removeNodeByName (name : String)
  | renameNodeByName (target name : String)
  | addEdgeByName (source target : String) (kind : EdgeKind)
  | removeEdgeByName (source target : String) (kind : EdgeKind)
  | setReturnByName (target ty : String)
  | setBodyByName (target body : String)
  | setMetadataByName (target key value : String)
  | addParamByName (target name ty : String)
  | addEffectByName (target effect : String)
  | removeEffectByName (target effect : String)
  | addContractByName (target kind rule : String)
  | removeContractByName (target rule : String)
  | addCapabilityReqByName (target capability : String)
  | removeCapabilityReqByName (target capability : String)
  | setVisibilityByName (target : String) (visibility : Visibility)
  | addBindingByName (target : String) (binding : Binding)
  | addInferredFactByName (target : String) (fact : InferredFact)
  | addDerivedImplByName (target implName : String)
  | addGeneratedArtifactByName (target : String) (artifact : GeneratedArtifact)
  | addAssertionByName (target : String) (assertion : Assertion)
  | setWorkflowStateByName (target : String) (state : WorkflowState)
  | noop
  deriving DecidableEq

/-- One canonical op: its class, its verb and arguments as written, the
mutation it carries and the hash of its block. -/
structure CanonicalOp where
  kind : ChangeSetOp := .infer
  verb : String := ""
  args : List (String × String) := []
  payload : OpPayload := .noop
  blockHash : BlockHash := ⟨List.replicate 32 0⟩
  deriving DecidableEq

/-- What must hold of the graph before the first op runs. -/
inductive Precondition where
  | assertExists (nodeId : NodeRef)
  | assertHash (nodeId : NodeRef) (expectedHash : BlockHash)
  | assertExistsByName (name : String)
  | assertHashByName (name : String) (expectedHash : BlockHash)
  | assertContext (targetName : String) (contextHash : Option String)
  deriving DecidableEq

structure CanonicalChangeSet where
  metadata : CanonicalMeta := ⟨"", "", ⟨0⟩⟩
  baseSnapshotId : SnapshotId := ⟨0⟩
  preconditions : List Precondition := []
  ops : List CanonicalOp := []
  deriving DecidableEq

/-- Why two concurrent changesets cannot be reconciled. -/
inductive ConflictReason where
  | sameNodeModifiedIncompatibly | nodeDeletedWhileModified | publicApiConflict
  | invariantTouchedConcurrently | incompatibleNodeModification
  deriving DecidableEq

inductive ChangeSetOutcome where
  | applied
  | rebaseRequired (currentSnapshotId : SnapshotId)
  | failed (reason : String)
  | conflictIrresolvable (reason : ConflictReason)
  deriving DecidableEq

end Ail.Change
