import Ail.Change.Apply
import Ail.Cli.Merge
import Ail.Cli.Store

/-!
# The workflow commands of a file-backed project

`init`, `change`, `verify`, `apply`, `rollback`, `rebase`, `merge` and
`gc` (`project_commands.rs`, `workflow_commands/`, `branch_commands.rs`,
`store_doctor.rs`) as one step function on the store.

A command that creates a snapshot first decides what it will save, a
`Save`, or fails; the writes come after. What a command prints is
reduced to an `Answer`: the snapshot saved, or the graph and the report
of a verification. Changeset texts are parsed before this level, and the
stages of the verification pipeline are a parameter.
-/

namespace Ail.Cli

open Ail.Core Change Verify Storage Lib

/-! ## What the commands take from outside -/

inductive AnySolver where
  | simple | z3

/-- `fallbackGraph` is `current_graph_for_cli`; `z3Feature` says whether
the solver was compiled in; `runWithChangeset` is the pipeline, from the
solver, the profile, the graph and the graph before the change. -/
structure Services (Oid : Type) where
  ids : ObjectIds Oid
  nodeHash : GraphNode → BlockHash
  fallbackGraph : Except CliError SemanticGraph
  z3Feature : Bool
  runWithChangeset : AnySolver → String → SemanticGraph → Option SemanticGraph → VerificationReport

inductive Command where
  | init (branch : String)
  | change (canonical : CanonicalChangeSet) (applyImmediately : Bool) (branch : Option String)
  | verify (changeId profile solver : String)
  | apply (changeId : String) (yes : Bool) (policyProfile : Option String)
  | rollback (toSnapshot changeId : Option String)
  | rebase (branch : String) (onto : Option String)
  | merge (branch : String) (intoTarget : Option String)
  | gc

/-- A snapshot about to be saved: the graph object to store with it, if
it is a new one, and the branch whose ref is to be written. -/
structure Save (Oid : Type) where
  graph : Option SemanticGraph
  envelope : SnapshotEnvelope Oid
  branch : String

inductive Answer (Oid : Type) where
  | done
  | verified (graph : SemanticGraph) (base : Option SemanticGraph) (report : VerificationReport)
  | saved (save : Save Oid)
  | failed (error : CliError)

variable {Oid : Type} [DecidableEq Oid] (svc : Services Oid) (moment : Moment)

def buildSolver (name : String) : Except CliError AnySolver :=
  if name = "simple" ∨ name = "" then .ok .simple
  else if name = "z3" then
    if svc.z3Feature then .ok .z3
    else .error (.domain ("solver 'z3' requires the z3-solver cargo feature; " ++
      "recompile ail-cli with --features z3-solver"))
  else .error (.domain ("unknown solver '" ++ name ++ "'; supported values: simple, z3"))

def conflictReasonMessage : ConflictReason → String
  | .sameNodeModifiedIncompatibly => "same node was modified incompatibly"
  | .nodeDeletedWhileModified => "node was deleted while another change modified it"
  | .publicApiConflict => "public API changes conflict"
  | .invariantTouchedConcurrently => "invariant changes conflict"
  | .incompatibleNodeModification =>
    "semantic node content conflict (return type, body, or effects differ)"

/-- The graph of a successful application, or the error a command raises
for the outcome. The two commands that apply word their errors apart. -/
def appliedGraph (failure conflict : String) :
    ChangeSetOutcome × SemanticGraph → Except CliError SemanticGraph
  | (.applied, graph) => .ok graph
  | (.rebaseRequired id, _) => .error (.rebaseRequired id)
  | (.failed reason, _) => .error (.domain (failure ++ reason))
  | (.conflictIrresolvable reason, _) => .error (.domain (conflict ++ conflictReasonMessage reason))

/-! ## The current graph -/

/-- The snapshot with the latest time stamp, the last one of several. -/
def latestSnapshot : List (SnapshotEnvelope Oid) → Option (SnapshotEnvelope Oid) :=
  List.foldl (fun best snapshot =>
    match best with
    | some known => if known.createdAt ≤ snapshot.createdAt then some snapshot else some known
    | none => some snapshot) none

/-- The loop of `snapshot_id_from_parent_chain`. Every round puts one
more stored id on `seen`, so `fuel` above the number of objects never
runs out (`parentDepth_fuel`). -/
def parentDepth (store : Store Oid) : Nat → List Oid → SnapshotEnvelope Oid → UInt64 →
    Except CliError UInt64
  | 0, _, _, _ => .error (.storage .notFound)
  | fuel + 1, seen, current, depth =>
    match current.parentId with
    | none => .ok depth
    | some parentId =>
      if parentId ∈ seen then
        .error (.domain ("snapshot parent cycle detected at " ++ svc.ids.toHex parentId))
      else
        match store.findSnapshot moment parentId with
        | none => .error (.domain ("snapshot parent not found: " ++ svc.ids.toHex parentId))
        | some parent => parentDepth store fuel (seen ++ [parentId]) parent (depth + 1)

variable (store : Store Oid)

def snapshotIdFromParentChain (snapshot : SnapshotEnvelope Oid) : Except CliError SnapshotId :=
  (parentDepth svc moment store (store.objects.length + 1) [snapshot.id] snapshot 0).map
    SnapshotId.mk

variable (branch : String)

/-- The snapshot a command works on when `branch` is checked out: its
tip, else the latest snapshot of all. -/
def currentSnapshotOn : Except CliError (Option (SnapshotEnvelope Oid)) := do
  let snapshots ← store.listSnapshots moment
  return (store.tipSnapshot moment branch).or (latestSnapshot snapshots)

def loadGraphOrFallback (root : Oid) : Except CliError SemanticGraph := do
  match ← store.loadGraph svc.ids root with
  | some graph => return graph
  | none => svc.fallbackGraph

def loadCurrentGraphOn : Except CliError (SemanticGraph × SnapshotId) := do
  match ← currentSnapshotOn moment store branch with
  | none => return (.empty, ⟨0⟩)
  | some snapshot =>
    let graph ← loadGraphOrFallback svc store snapshot.graphRootHash
    let snapshotId ← snapshotIdFromParentChain svc moment store snapshot
    return (graph, snapshotId)

def loadCurrentGraphWithSnapshotId : Except CliError (SemanticGraph × SnapshotId) :=
  loadCurrentGraphOn svc moment store store.head.name

def loadCurrentGraph : Except CliError SemanticGraph := do
  match ← currentSnapshotOn moment store store.head.name with
  | none => return .empty
  | some snapshot => loadGraphOrFallback svc store snapshot.graphRootHash

/-- The tip of a branch that has to exist. -/
def branchHeadSnapshot : Except CliError (SnapshotEnvelope Oid) :=
  if isBranchName branch then
    match store.tipSnapshot moment branch with
    | some snapshot => .ok snapshot
    | none => .error (.notFound ("branch not found: " ++ branch))
  else .error (.domain ("invalid name: " ++ branch))

/-! ## Saving -/

/-- The graph, then the snapshot with its ref and its index entry. -/
def Save.commit (save : Save Oid) (store : Store Oid) : Store Oid :=
  let store := match save.graph with
    | some graph => store.put svc.ids (.graph graph)
    | none => store
  store.saveSnapshotOnBranch svc.ids save.branch save.envelope

/-- Carry out what was decided. -/
def settle : Except CliError (Save Oid) → Store Oid × Answer Oid
  | .ok save => (save.commit svc store, .saved save)
  | .error error => (store, .failed error)

/-! ## The commands -/

/-- Check the branch out; a branch without ref file gets an empty one. -/
def initFileLayout (head : BranchName) (store : Store Oid) : Store Oid :=
  let store := { store with head }
  if (store.refs.read head.name).isNone then store.writeObjectRef head.name none else store

def genesisSave : Save Oid :=
  { graph := some .empty
    envelope :=
      { id := svc.ids.label "genesis"
        graphRootHash := svc.ids.object (.graph .empty)
        parentId := none
        createdAt := moment.now }
    branch }

def cmdInit (store : Store Oid) : Store Oid × Answer Oid :=
  match validateBranchName branch with
  | .error error => (store, .failed error)
  | .ok head =>
    let store := initFileLayout head store
    match store.listSnapshots moment with
    | .error error => (store, .failed error)
    | .ok (_ :: _) => (store, .done)
    | .ok [] => settle svc store (.ok (genesisSave svc moment branch))

variable (canonical : CanonicalChangeSet)

/-- The log entry and the payload of a draft. -/
def recordDraft (store : Store Oid) : Store Oid :=
  let changeOid := svc.ids.object (.changeset canonical)
  let entry : ChangeSetLogEntry Oid :=
    { id := changeOid
      baseSnapshotId := svc.ids.hash (.base canonical.baseSnapshotId.val)
      payloadHash := changeOid
      createdAt := moment.logTime }
  (store.put svc.ids (.logEntry entry)).put svc.ids (.changeset canonical)

/-- The branch `change --apply` saves on. -/
def targetBranch : Option String → Except CliError BranchName
  | none => .ok store.head
  | some branch => validateBranchName branch

def changeLabel : String :=
  "snapshot-after-" ++ svc.ids.toHex (svc.ids.object (.changeset canonical))

variable (snapshots : List (SnapshotEnvelope Oid))

/-- The ops are applied to the EMPTY graph, and the parent is the latest
snapshot of any branch. -/
def changeSave (graph : SemanticGraph) (branch : String) : Save Oid :=
  { graph := some graph
    envelope :=
      { id := svc.ids.label (changeLabel svc canonical)
        graphRootHash := svc.ids.object (.graph graph)
        parentId := (latestSnapshot snapshots).map (·.id)
        appliedChangeId := some (svc.ids.object (.changeset canonical))
        createdAt := moment.now }
    branch }

/-- An unusable branch name is noticed only when the graph is stored. -/
def cmdChange (applyImmediately : Bool) (branch : Option String) (store : Store Oid) :
    Store Oid × Answer Oid :=
  let store := recordDraft svc moment canonical store
  if applyImmediately then
    match store.listSnapshots moment with
    | .error error => (store, .failed error)
    | .ok snapshots =>
      match appliedGraph "change apply failed: " "Change conflict: "
          (apply svc.nodeHash canonical.baseSnapshotId canonical .empty) with
      | .error error => (store, .failed error)
      | .ok graph =>
        match targetBranch store branch with
        | .error error => (store.put svc.ids (.graph graph), .failed error)
        | .ok target =>
          settle svc store (.ok (changeSave svc moment canonical snapshots graph target.name))
  else (store, .done)

variable (changeId : String)

/-- The graph a verification looks at, with the graph before the change.
Whatever keeps the changeset from applying leaves the empty graph. -/
def verifiedGraph : Except CliError (SemanticGraph × Option SemanticGraph) := do
  match ← store.loadChangesetById svc.ids changeId with
  | none => return (.empty, none)
  | some canonical =>
    let (current, snapshotId) ← loadCurrentGraphWithSnapshotId svc moment store
    match apply svc.nodeHash snapshotId canonical current with
    | (.applied, graph) => return (graph, some current)
    | _ => return (.empty, none)

variable (profile : String)

def cmdVerify (solver : String) (store : Store Oid) : Store Oid × Answer Oid :=
  if (svc.ids.ofHex changeId).isNone then
    (store, .failed (.notFound ("change-id not found: " ++ changeId)))
  else
    match verifiedGraph svc moment store changeId with
    | .error error => (store, .failed error)
    | .ok (graph, base) =>
      match buildSolver svc solver with
      | .error error => (store, .failed error)
      | .ok solver =>
        let report := svc.runWithChangeset solver profile graph base
        (store.saveVerificationReport svc.ids changeId profile report,
          .verified graph base report)

def approvalGate (yes : Bool) : Except CliError Unit :=
  if profile = "prod" ∧ yes = false then
    .error (.domain "apply blocked: prod profile requires approval; rerun with --yes to confirm")
  else .ok ()

/-- The hash of the report that lets `apply` pass. -/
def verificationGate : Except CliError Oid := do
  match ← store.loadVerificationReportByChangeId svc.ids changeId with
  | none =>
    throw (.domain ("apply blocked: no verification report found for change-id " ++ changeId ++
      "; run `ail verify " ++ changeId ++ " --profile " ++ profile ++ "` first"))
  | some (report, hash, verifiedProfile) =>
    if verifiedProfile ≠ profile then
      throw (.domain ("apply blocked: verification report for " ++ changeId ++
        " was produced with profile '" ++ verifiedProfile ++ "' but apply requires profile '" ++
        profile ++ "'; run `ail verify " ++ changeId ++ " --profile " ++ profile ++ "` first"))
    else
      match report.summary with
      | .failed => throw (.domain ("apply blocked: verification report for " ++ changeId ++
          " has summary Failed; repair failing checks before apply"))
      | .unsafe_ => throw (.domain ("apply blocked: verification report for " ++ changeId ++
          " has summary Unsafe; repair failing checks before apply"))
      | _ => return hash

def applyLabel : String := "snapshot-after-" ++ changeId

def applySave (changeOid : Oid) (current : Option (SnapshotEnvelope Oid)) (reportHash : Oid)
    (graph : SemanticGraph) (branch : String) : Save Oid :=
  { graph := some graph
    envelope :=
      { id := svc.ids.label (applyLabel changeId)
        graphRootHash := svc.ids.object (.graph graph)
        parentId := current.map (·.id)
        appliedChangeId := some changeOid
        createdAt := moment.now
        verificationReportHash := some reportHash }
    branch }

def planApply (yes : Bool) (policyProfile : Option String) (store : Store Oid) :
    Except CliError (Save Oid) := do
  match svc.ids.ofHex changeId with
  | none => throw (.notFound ("change-id not found: " ++ changeId))
  | some changeOid =>
    let current ← currentSnapshotOn moment store store.head.name
    let profile := policyProfile.getD "dev"
    approvalGate profile yes
    let reportHash ← verificationGate svc store changeId profile
    let (graph, snapshotId) ← loadCurrentGraphWithSnapshotId svc moment store
    match ← store.loadChangesetById svc.ids changeId with
    | none => throw (.notFound ("change-id not found: " ++ changeId))
    | some canonical =>
      let graph ← appliedGraph "apply failed: " "Conflict: "
        (apply svc.nodeHash snapshotId canonical graph)
      return applySave svc moment changeId changeOid current reportHash graph store.head.name

/-- What both kinds of rollback save: a new snapshot over the last one
of the index. -/
def rollbackSave (label : String) (graph : Option SemanticGraph) (root : Oid) (branch : String) :
    Save Oid :=
  { graph
    envelope :=
      { id := svc.ids.label label
        graphRootHash := root
        parentId := snapshots.getLast?.map (·.id)
        createdAt := moment.now }
    branch }

def rollbackToLabel (snapshotId : String) : String := "rollback-to-" ++ snapshotId

def rollbackChangeLabel : String := "rollback-change-" ++ changeId

/-- The snapshot a rollback by change goes back to: the last in the
index that the change did not produce, else the first of all. -/
def rollbackTarget (changeOid : Oid) : Option (SnapshotEnvelope Oid) :=
  (snapshots.reverse.find? (·.appliedChangeId ≠ some changeOid)).or snapshots.head?

def planRollback (toSnapshot changeId : Option String) (store : Store Oid) :
    Except CliError (Save Oid) := do
  let snapshots ← store.listSnapshots moment
  match toSnapshot, changeId with
  | some snapshotId, _ =>
    match svc.ids.ofHex snapshotId with
    | none => throw (.notFound ("snapshot not found: " ++ snapshotId))
    | some oid =>
      match store.findSnapshot moment oid with
      | some target =>
        return rollbackSave svc moment snapshots (rollbackToLabel snapshotId) none
          target.graphRootHash store.head.name
      | none =>
        return rollbackSave svc moment snapshots (rollbackToLabel snapshotId) (some .empty)
          (svc.ids.object (.graph .empty)) store.head.name
  | none, some changeId =>
    match svc.ids.ofHex changeId with
    | none => throw (.notFound ("change-id not found: " ++ changeId))
    | some changeOid =>
      match rollbackTarget snapshots changeOid with
      | some target =>
        return rollbackSave svc moment snapshots (rollbackChangeLabel changeId) none
          target.graphRootHash store.head.name
      | none => throw (.notFound "no snapshots available for rollback")
  | none, none => throw (.domain "rollback requires --to <snapshot-id> or <change-id>")

def graphOrEmpty (root : Oid) : Except CliError SemanticGraph := do
  return (← store.loadGraph svc.ids root).getD .empty

/-- The graph a rebase onto `branch` saves. -/
def rebasedGraph (store : Store Oid) : Except CliError SemanticGraph := do
  let current ← loadCurrentGraph svc moment store
  let tip ← branchHeadSnapshot moment store branch
  let target ← graphOrEmpty svc store tip.graphRootHash
  return (mergeGraphsAdditive target current).1

def rebaseLabel (graph : SemanticGraph) : String :=
  "rebase-onto-" ++ branch ++ "-" ++ svc.ids.toHex (svc.ids.object (.graph graph))

/-- What `rebase` and `merge` save: a merged graph under a label. -/
def mergedSave (label : String) (graph : SemanticGraph) (parentId : Option Oid) (branch : String) :
    Save Oid :=
  { graph := some graph
    envelope :=
      { id := svc.ids.label label
        graphRootHash := svc.ids.object (.graph graph)
        parentId
        createdAt := moment.now }
    branch }

def planRebase (store : Store Oid) : Except CliError (Save Oid) := do
  let graph ← rebasedGraph svc moment branch store
  return mergedSave svc moment (rebaseLabel svc branch graph) graph
    ((store.headSnapshot moment).map (·.id)) store.head.name

/-- With `--onto` only the two ids are looked at. -/
def cmdRebase (onto : Option String) (store : Store Oid) : Store Oid × Answer Oid :=
  match onto with
  | some onto =>
    if (svc.ids.ofHex branch).isNone then
      (store, .failed (.notFound ("change-id not found: " ++ branch)))
    else if (svc.ids.ofHex onto).isNone then
      (store, .failed (.notFound ("snapshot not found: " ++ onto)))
    else (store, .done)
  | none => settle svc store (planRebase svc moment branch store)

def mergeLabel (target : String) : String := "merge-" ++ branch ++ "-into-" ++ target

/-- The snapshot a merge builds on: the target's tip, else the current
branch's. -/
def mergeTarget (target : String) (store : Store Oid) : Except CliError (SnapshotEnvelope Oid) :=
  match branchHeadSnapshot moment store target, store.headSnapshot moment with
  | .ok snapshot, _ => .ok snapshot
  | .error _, some snapshot => .ok snapshot
  | .error _, none => .error (.notFound "target branch has no HEAD snapshot")

/-- A source branch that cannot be read contributes nothing. -/
def mergedGraph (targetSnapshot : SnapshotEnvelope Oid) (store : Store Oid) :
    Except CliError SemanticGraph := do
  let targetGraph ← graphOrEmpty svc store targetSnapshot.graphRootHash
  let sourceGraph ←
    match branchHeadSnapshot moment store branch with
    | .ok source => graphOrEmpty svc store source.graphRootHash
    | .error _ => pure targetGraph
  return (mergeGraphsAdditive targetGraph sourceGraph).1

/-- The snapshot saved goes to the CURRENT branch, whatever the target. -/
def planMerge (intoTarget : Option String) (store : Store Oid) : Except CliError (Save Oid) := do
  let target := intoTarget.getD store.head.name
  let targetSnapshot ← mergeTarget moment target store
  let graph ← mergedGraph svc moment branch targetSnapshot store
  return mergedSave svc moment (mergeLabel branch target) graph (some targetSnapshot.id)
    store.head.name

/-! ## Garbage collection -/

/-- What a snapshot keeps alive besides itself and its parent. -/
def snapshotLinks (snapshot : SnapshotEnvelope Oid) : List Oid :=
  snapshot.graphRootHash :: snapshot.appliedChangeId.toList ++
    snapshot.verificationReportHash.toList

/-- The walk from one branch tip along the parents. It ends at the first
snapshot whose hash is marked already, so `fuel` above the number of
objects never runs out (`markChain_closed`). -/
def markChain (store : Store Oid) : Nat → List Oid → Option Oid → List Oid
  | 0, reachable, _ => reachable
  | _ + 1, reachable, none => reachable
  | fuel + 1, reachable, some id =>
    match store.findSnapshot moment id with
    | none => reachable
    | some snapshot =>
      let cas := svc.ids.object (.snapshot snapshot)
      if cas ∈ reachable then reachable
      else markChain store fuel (snapshotLinks snapshot ++ cas :: reachable) snapshot.parentId

def reachableObjects : List Oid :=
  (moment.order store.refs).foldl
    (fun reachable ref => markChain svc moment store (store.objects.length + 1) reachable ref.2) []

/-- Delete every object file that is not reachable. -/
def gc : Store Oid :=
  let reachable := reachableObjects svc moment store
  { store with objects := store.objects.filter (svc.ids.object · ∈ reachable) }

/-! ## One command -/

/-- A command and the circumstances it runs under, to the store it
leaves and what it answers. -/
def step (input : Moment × Command) : Store Oid × Answer Oid :=
  let moment := input.1
  match input.2 with
  | .init branch => cmdInit svc moment branch store
  | .change canonical applyImmediately branch =>
    cmdChange svc moment canonical applyImmediately branch store
  | .verify changeId profile solver => cmdVerify svc moment changeId profile solver store
  | .apply changeId yes policyProfile =>
    settle svc store (planApply svc moment changeId yes policyProfile store)
  | .rollback toSnapshot changeId =>
    settle svc store (planRollback svc moment toSnapshot changeId store)
  | .rebase branch onto => cmdRebase svc moment branch onto store
  | .merge branch intoTarget => settle svc store (planMerge svc moment branch intoTarget store)
  | .gc => (gc svc moment store, .done)

/-! ## A small instance

Ids that remember what was hashed, a hex form for the ids in `known`, and
a pipeline that counts nodes. Directories are listed in order. -/

namespace Sample

def toHex : Digest → String
  | .label text => "label:" ++ text
  | .changeset changeset => "change:" ++ changeset.metadata.description
  | .graph graph => "graph:" ++ toString graph.nodes.length
  | _ => ""

def services (known : List Digest) : Services Digest where
  ids :=
    { hash := Digest.ofContent
      toHex
      ofHex := fun text => known.find? (toHex · = text) }
  nodeHash _ := ⟨[]⟩
  fallbackGraph := .ok .empty
  z3Feature := false
  runWithChangeset _ profile graph _ :=
    ⟨[{ claim := toString graph.nodes.length, state := .proven, scope := profile }]⟩

def instant (time : UInt64) : Moment := ⟨time, time, id, fun files => .refl files⟩

/-- A changeset on the empty project that creates one function. -/
def draft : CanonicalChangeSet :=
  { metadata := ⟨"", "draft", ⟨0⟩⟩
    ops := [{ payload := .createNode { id := ⟨1⟩, kind := .function, name := "f" } }] }

/-- A changeset on top of `draft` that creates another function. -/
def second : CanonicalChangeSet :=
  { metadata := ⟨"", "second", ⟨0⟩⟩
    baseSnapshotId := ⟨1⟩
    ops := [{ payload := .createNode { id := ⟨2⟩, kind := .function, name := "g" } }] }

end Sample

end Ail.Cli
