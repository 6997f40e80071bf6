import Ail.Change.Apply
import Ail.Lib.Run

/-!
# The coordinator

`Coordinator::submit` holds the mutex for the whole of one submission,
so concurrent agents are a sequence of submissions. A changeset based on
the live snapshot is applied; any other is rebased first, which compares
the refs it names with the refs named by the changeset committed LAST
and, when they are disjoint, moves its base to the live id.

Only the window of one commit is stored, and only the payloads that
carry a `NodeRef` are seen (`ail-coordinator`, `coordinator.rs`
"Simplification", `rebase.rs` "NodeRef extraction").
-/

namespace Ail.Coordinator

open Ail.Core Change Lib List

/-! ## Semantic rebase -/

/-- The refs touched by committed ops. -/
structure StructuralDiff where
  touchedNodes : Finset NodeRef

/-- The refs a payload names. By-name payloads are resolved only when
they are applied and name none. -/
def extractNodeRefs : OpPayload → Finset NodeRef
  | .createNode node => {node.id}
  | .removeNode nodeRef => {nodeRef}
  | .setNodeName nodeId _ => {nodeId}
  | .addEdge edge => {edge.source, edge.target}
  | _ => ∅

def StructuralDiff.fromOps (ops : List CanonicalOp) : StructuralDiff :=
  ⟨ops.foldl (fun touched op => touched ∪ extractNodeRefs op.payload) ∅⟩

inductive RebaseResult where
  | rebased (cs : CanonicalChangeSet)
  | conflict (reason : ConflictReason)

/-- Move the base to the live id unless a ref is touched on both sides. -/
def rebase (pending : CanonicalChangeSet) (diff : StructuralDiff) (liveSnapshotId : SnapshotId) :
    RebaseResult :=
  let pendingNodes := pending.ops.foldl (fun touched op => touched ∪ extractNodeRefs op.payload) ∅
  let conflicts := pendingNodes ∩ diff.touchedNodes
  if conflicts = ∅ then .rebased { pending with baseSnapshotId := liveSnapshotId }
  else .conflict .sameNodeModifiedIncompatibly

def classifyConflict (conflicts removedInDiff : Finset NodeRef) : ConflictReason :=
  if conflicts ∩ removedInDiff ≠ ∅ then .nodeDeletedWhileModified else .sameNodeModifiedIncompatibly

def extractRemovedNodes (ops : List CanonicalOp) : Finset NodeRef :=
  (ops.filterMap fun op =>
    match op.payload with
    | .removeNode nodeRef => some nodeRef
    | _ => none).toFinset

/-! ## The coordinator's state and answers -/

inductive CoordinatorOutcome where
  | applied (appliedSnapshotId : SnapshotId)
  | rebaseApplied (rebasedOnto appliedSnapshotId : SnapshotId)
  | conflictIrresolvable (reason : ConflictReason)
  | staleBase (currentSnapshotId : SnapshotId)
  | failed (reason : String)
  deriving DecidableEq

/-- The state under the mutex. `liveId` is the counter of the
`MemorySnapshotBridge`. -/
structure CoordinatorState where
  graph : SemanticGraph
  liveId : SnapshotId
  committedDiff : StructuralDiff
  committedRemoves : Finset NodeRef

/-- `advance_snapshot_id`: a `fetch_add(1)` on a `u64`. -/
def advance (id : SnapshotId) : SnapshotId := ⟨id.val + 1⟩

def CoordinatorState.new (initialSnapshotId : SnapshotId) (graph : SemanticGraph) :
    CoordinatorState :=
  ⟨graph, initialSnapshotId, ⟨∅⟩, ∅⟩

variable (nodeHash : GraphNode → BlockHash)

/-- Apply a changeset and, on success, advance the id and remember what
it touched. `answer` is what a success is reported as. -/
def applyAndCommit (state : CoordinatorState) (cs : CanonicalChangeSet)
    (answer : SnapshotId → CoordinatorOutcome) : CoordinatorState × CoordinatorOutcome :=
  match apply nodeHash state.liveId cs state.graph with
  | (.applied, graph) =>
    (⟨graph, advance state.liveId, .fromOps cs.ops, extractRemovedNodes cs.ops⟩,
      answer (advance state.liveId))
  | (.failed reason, graph) => ({ state with graph }, .failed reason)
  | (.rebaseRequired currentSnapshotId, graph) =>
    ({ state with graph }, .staleBase currentSnapshotId)
  | (.conflictIrresolvable reason, graph) => ({ state with graph }, .conflictIrresolvable reason)

/-- One submission, under the lock. -/
def submit (state : CoordinatorState) (cs : CanonicalChangeSet) :
    CoordinatorState × CoordinatorOutcome :=
  if cs.baseSnapshotId = state.liveId then applyAndCommit nodeHash state cs .applied
  else
    match rebase cs state.committedDiff state.liveId with
    | .rebased rebasedCs =>
      applyAndCommit nodeHash state rebasedCs (.rebaseApplied state.liveId)
    | .conflict _ =>
      let conflicts :=
        (StructuralDiff.fromOps cs.ops).touchedNodes ∩ state.committedDiff.touchedNodes
      (state, .conflictIrresolvable (classifyConflict conflicts state.committedRemoves))

/-- The answers that report a commit. -/
def CoordinatorOutcome.accepts : CoordinatorOutcome → Bool
  | .applied _ | .rebaseApplied _ _ => true
  | _ => false

/-- The changesets a log of exchanges committed, in answer order. -/
def accepted (log : List (CanonicalChangeSet × CoordinatorOutcome)) : List CanonicalChangeSet :=
  (log.filter (·.2.accepts)).map (·.1)

/-- The commit one changeset makes, whatever base it was written for. -/
def commit (state : CoordinatorState) (cs : CanonicalChangeSet) (graph : SemanticGraph) :
    CoordinatorState :=
  ⟨graph, advance state.liveId, .fromOps cs.ops, extractRemovedNodes cs.ops⟩

/-- The changeset as it is applied: based on the live snapshot. -/
def rebasedOnto (liveId : SnapshotId) (cs : CanonicalChangeSet) : CanonicalChangeSet :=
  { cs with baseSnapshotId := liveId }

/-! ## What one submission can do -/

section Rebase

variable {cs : CanonicalChangeSet} {diff : StructuralDiff} {liveId : SnapshotId}

theorem rebasedOnto_self (hbase : cs.baseSnapshotId = liveId) : rebasedOnto liveId cs = cs := by
  rw [rebasedOnto, ← hbase]

theorem rebase_of_disjoint
    (hdisjoint : Disjoint (StructuralDiff.fromOps cs.ops).touchedNodes diff.touchedNodes) :
    rebase cs diff liveId = .rebased (rebasedOnto liveId cs) :=
  if_pos (Finset.disjoint_iff_inter_eq_empty.1 hdisjoint)

theorem rebase_of_not_disjoint
    (hmeet : ¬ Disjoint (StructuralDiff.fromOps cs.ops).touchedNodes diff.touchedNodes) :
    rebase cs diff liveId = .conflict .sameNodeModifiedIncompatibly :=
  if_neg fun h => hmeet (Finset.disjoint_iff_inter_eq_empty.2 h)

end Rebase

/-- A success commits the graph that `apply` made, anything else leaves
the state alone. -/
theorem applyAndCommit_cases (state : CoordinatorState) (cs : CanonicalChangeSet)
    (answer : SnapshotId → CoordinatorOutcome) :
    (∃ graph, apply nodeHash state.liveId cs state.graph = (.applied, graph) ∧
      applyAndCommit nodeHash state cs answer =
        (commit state cs graph, answer (advance state.liveId))) ∨
    ((apply nodeHash state.liveId cs state.graph).1 ≠ .applied ∧
      (applyAndCommit nodeHash state cs answer).1 = state ∧
      (applyAndCommit nodeHash state cs answer).2.accepts = false) := by
  unfold applyAndCommit
  rcases apply_cases nodeHash state.liveId cs state.graph with
    ⟨-, h⟩ | ⟨-, reason, h, -⟩ | ⟨-, graph, h, -⟩
  · rw [h]; exact .inr ⟨by simp, rfl, rfl⟩
  · rw [h]; exact .inr ⟨by simp, rfl, rfl⟩
  · rw [h]; exact .inl ⟨graph, rfl, rfl⟩

/-- The three things a submission can do: commit on the live base, commit
after a rebase past a disjoint diff, or change nothing. -/
theorem submit_cases (state : CoordinatorState) (cs : CanonicalChangeSet) :
    (cs.baseSnapshotId = state.liveId ∧ ∃ graph,
      apply nodeHash state.liveId (rebasedOnto state.liveId cs) state.graph = (.applied, graph) ∧
        submit nodeHash state cs = (commit state cs graph, .applied (advance state.liveId))) ∨
    (cs.baseSnapshotId ≠ state.liveId ∧
      Disjoint (StructuralDiff.fromOps cs.ops).touchedNodes state.committedDiff.touchedNodes ∧
      ∃ graph,
        apply nodeHash state.liveId (rebasedOnto state.liveId cs) state.graph = (.applied, graph) ∧
          submit nodeHash state cs =
            (commit state cs graph, .rebaseApplied state.liveId (advance state.liveId))) ∨
    ((submit nodeHash state cs).1 = state ∧ (submit nodeHash state cs).2.accepts = false ∧
      ((apply nodeHash state.liveId (rebasedOnto state.liveId cs) state.graph).1 ≠ .applied ∨
        ¬ Disjoint (StructuralDiff.fromOps cs.ops).touchedNodes
          state.committedDiff.touchedNodes)) := by
  by_cases hbase : cs.baseSnapshotId = state.liveId
  · have hsubmit : submit nodeHash state cs = applyAndCommit nodeHash state cs .applied :=
      if_pos hbase
    rw [rebasedOnto_self hbase, hsubmit]
    rcases applyAndCommit_cases nodeHash state cs .applied with
      ⟨graph, happly, hcommit⟩ | ⟨happly, hstate, hanswer⟩
    · exact .inl ⟨hbase, graph, happly, hcommit⟩
    · exact .inr (.inr ⟨hstate, hanswer, .inl happly⟩)
  · by_cases hdisjoint :
        Disjoint (StructuralDiff.fromOps cs.ops).touchedNodes state.committedDiff.touchedNodes
    · have hsubmit : submit nodeHash state cs = applyAndCommit nodeHash state
          (rebasedOnto state.liveId cs) (.rebaseApplied state.liveId) := by
        simp [submit, hbase, rebase_of_disjoint hdisjoint]
      rw [hsubmit]
      rcases applyAndCommit_cases nodeHash state (rebasedOnto state.liveId cs)
          (.rebaseApplied state.liveId) with
        ⟨graph, happly, hcommit⟩ | ⟨happly, hstate, hanswer⟩
      · exact .inr (.inl ⟨hbase, hdisjoint, graph, happly, hcommit⟩)
      · exact .inr (.inr ⟨hstate, hanswer, .inl happly⟩)
    · simp only [submit, hbase, if_false, rebase_of_not_disjoint hdisjoint]
      exact .inr (.inr ⟨trivial, rfl, .inr hdisjoint⟩)

/-! ## The serial history a coordinator stands for

The abstract coordinator is a list of changesets, committed one after
the other: `replay` applies each of them to the graph its predecessors
left, at the snapshot id they left it at. -/

/-- Apply one more changeset of a serial history. -/
def replayStep (point : SnapshotId × SemanticGraph) (cs : CanonicalChangeSet) :
    Option (SnapshotId × SemanticGraph) :=
  match apply nodeHash point.1 (rebasedOnto point.1 cs) point.2 with
  | (.applied, graph) => some (advance point.1, graph)
  | _ => none

/-- Apply a list of changesets in order; `none` if one is not applied. -/
def replay (initialId : SnapshotId) (graph : SemanticGraph) (history : List CanonicalChangeSet) :
    Option (SnapshotId × SemanticGraph) :=
  history.foldlM (replayStep nodeHash) (initialId, graph)

theorem replay_concat (initialId : SnapshotId) (graph : SemanticGraph)
    (history : List CanonicalChangeSet) (cs : CanonicalChangeSet) :
    replay nodeHash initialId graph (history ++ [cs]) =
      (replay nodeHash initialId graph history).bind (replayStep nodeHash · cs) := by
  simp [replay]

@[simp] theorem accepted_concat (log : List (CanonicalChangeSet × CoordinatorOutcome))
    (cs : CanonicalChangeSet) (answer : CoordinatorOutcome) :
    accepted (log ++ [(cs, answer)]) =
      if answer.accepts then accepted log ++ [cs] else accepted log := by
  cases h : answer.accepts <;> simp [accepted, h]

/-- The diff a coordinator holds after a history: that of its last commit. -/
def lastDiff (history : List CanonicalChangeSet) : StructuralDiff :=
  history.getLast?.elim ⟨∅⟩ (.fromOps ·.ops)

/-- What ties a coordinator to the log of its answers: the graph and the
id are those of the serial history of the accepted changesets, the diff
is that of the last of them, and the graph validates. -/
structure Follows (initialId : SnapshotId) (graph : SemanticGraph) (state : CoordinatorState)
    (log : List (CanonicalChangeSet × CoordinatorOutcome)) : Prop where
  valid : state.graph.Valid
  live : state.liveId = ⟨initialId.val + UInt64.ofNat (accepted log).length⟩
  replayed : replay nodeHash initialId graph (accepted log) = some (state.liveId, state.graph)
  diff : state.committedDiff = lastDiff (accepted log)

variable {nodeHash}

variable {graph : SemanticGraph} {initialId : SnapshotId} {state : CoordinatorState}
  {log : List (CanonicalChangeSet × CoordinatorOutcome)}

/-- A commit extends the history by the committed changeset. -/
theorem Follows.commit {graph' : SemanticGraph}
    (follows : Follows nodeHash initialId graph state log) {cs : CanonicalChangeSet}
    {answer : CoordinatorOutcome} (haccepts : answer.accepts = true)
    (happly : apply nodeHash state.liveId (rebasedOnto state.liveId cs) state.graph =
      (.applied, graph')) :
    Follows nodeHash initialId graph (commit state cs graph') (log ++ [(cs, answer)]) := by
  have hhistory : accepted (log ++ [(cs, answer)]) = accepted log ++ [cs] := by simp [haccepts]
  refine ⟨?_, ?_, ?_, ?_⟩
  · have hvalid : (apply nodeHash state.liveId (rebasedOnto state.liveId cs) state.graph).2.Valid :=
      apply_valid nodeHash follows.valid
    rwa [happly] at hvalid
  · rw [hhistory, length_append]
    show advance state.liveId = _
    rw [advance, follows.live, UInt64.ofNat_add, UInt64.add_assoc]
    rfl
  · rw [hhistory, replay_concat, follows.replayed, Option.bind_some]
    simp only [replayStep, happly]
    rfl
  · rw [hhistory, lastDiff, getLast?_concat]
    rfl

/-- Every submission keeps a coordinator and its log in step. -/
theorem Follows.submit (follows : Follows nodeHash initialId graph state log)
    (cs : CanonicalChangeSet) :
    Follows nodeHash initialId graph (submit nodeHash state cs).1
      (log ++ [(cs, (Coordinator.submit nodeHash state cs).2)]) := by
  rcases submit_cases nodeHash state cs with
    ⟨-, graph', happly, hsubmit⟩ | ⟨-, -, graph', happly, hsubmit⟩ | ⟨hstate, hanswer, -⟩
  · rw [hsubmit]
    exact follows.commit rfl happly
  · rw [hsubmit]
    exact follows.commit rfl happly
  · have hhistory : accepted (log ++ [(cs, (Coordinator.submit nodeHash state cs).2)]) =
        accepted log := by simp [hanswer]
    rw [hstate]
    exact ⟨follows.valid, by rw [hhistory, follows.live], by rw [hhistory, follows.replayed],
      by rw [hhistory, follows.diff]⟩

theorem follows_run (initialId : SnapshotId) (valid : graph.Valid)
    (submissions : List CanonicalChangeSet) :
    Follows nodeHash initialId graph
      (run (submit nodeHash) (.new initialId graph) submissions).1
      (run (submit nodeHash) (.new initialId graph) submissions).2 :=
  run_induction ⟨valid, by simp [CoordinatorState.new, accepted], rfl, rfl⟩
    (fun _ _ cs follows => follows.submit cs) submissions

variable (nodeHash)

/-- The coordinator over every run from a graph that validates: its graph
validates, its id has moved once per accepted answer, its graph is the
serial application of exactly the accepted changesets in answer order,
and a submission answered in any other way changes nothing. -/
theorem coordinator_run_invariant (initialId : SnapshotId) (graph : SemanticGraph)
    (hvalidate : graph.validate = .ok ()) (submissions : List CanonicalChangeSet) :
    let final := run (submit nodeHash) (.new initialId graph) submissions
    final.1.graph.validate = .ok () ∧
    final.1.liveId = ⟨initialId.val + UInt64.ofNat (accepted final.2).length⟩ ∧
    replay nodeHash initialId graph (accepted final.2) = some (final.1.liveId, final.1.graph) ∧
    ∀ cs, (submit nodeHash final.1 cs).2.accepts = false →
      (submit nodeHash final.1 cs).1 = final.1 := by
  intro final
  have follows : Follows nodeHash initialId graph final.1 final.2 :=
    follows_run initialId ((SemanticGraph.validate_eq_ok_iff graph).1 hvalidate) submissions
  refine ⟨(SemanticGraph.validate_eq_ok_iff _).2 follows.valid, follows.live, follows.replayed,
    fun cs hanswer => ?_⟩
  rcases submit_cases nodeHash final.1 cs with
    ⟨-, graph', -, hsubmit⟩ | ⟨-, -, graph', -, hsubmit⟩ | ⟨hstate, -⟩
  · rw [hsubmit] at hanswer
    cases hanswer
  · rw [hsubmit] at hanswer
    cases hanswer
  · exact hstate

/-- Two submissions on the empty graph, the second of them stale: both
are committed and the id moves by two. -/
theorem coordinator_run_invariant_stale :
    SemanticGraph.empty.validate = .ok () ∧
    (run (submit fun _ => ⟨[]⟩) (.new ⟨7⟩ .empty)
      [{ baseSnapshotId := ⟨7⟩,
         ops := [{ payload := .createNode { id := ⟨1⟩, kind := .module, name := "m" } }] },
       { baseSnapshotId := ⟨7⟩,
         ops := [{ payload := .createNode { id := ⟨2⟩, kind := .module, name := "n" } }] }]
      ).1.liveId = ⟨9⟩ :=
  ⟨rfl, (coordinator_run_invariant _ ⟨7⟩ .empty rfl _).2.1.trans (by decide)⟩

/-! ## Which stale submissions are accepted -/

/-- A graph with one node, renamed through its ref by two agents that both
start from snapshot 0, with an unrelated commit between them. -/
def lostRename : List CanonicalChangeSet :=
  [{ baseSnapshotId := ⟨0⟩, ops := [{ payload := .setNodeName ⟨1⟩ "fn.renamed" }] },
   { baseSnapshotId := ⟨1⟩,
     ops := [{ payload := .createNode { id := ⟨2⟩, kind := .module, name := "m" } }] },
   { baseSnapshotId := ⟨0⟩, ops := [{ payload := .setNodeName ⟨1⟩ "fn.other" }] }]

/-- The second rename is rebased over the first, which was committed after
its base and names the same node: only the unrelated commit in between
was compared with it. A base beyond the live id is rebased as well. -/
theorem lostRename_rebaseApplied :
    (run (submit fun _ => ⟨[]⟩)
        (.new ⟨0⟩ ⟨[{ id := ⟨1⟩, kind := .function, name := "fn.a" }], []⟩) lostRename).2 =
      lostRename.zip [.applied ⟨1⟩, .applied ⟨2⟩, .rebaseApplied ⟨2⟩ ⟨3⟩] ∧
    (lostRename.map fun cs => (StructuralDiff.fromOps cs.ops).touchedNodes) =
      [{⟨1⟩}, {⟨2⟩}, {⟨1⟩}] ∧
    (submit (fun _ => ⟨[]⟩) (.new ⟨0⟩ .empty) { baseSnapshotId := ⟨5⟩ }).2 =
      .rebaseApplied ⟨0⟩ ⟨1⟩ := by
  decide

/-- Over every run, a submission whose base is not the live id, older or
beyond it, is answered `rebaseApplied` exactly when the refs its ops
carry are disjoint from the refs the ops of the last accepted changeset
carry and the changeset, based on the live id, applies to the live graph. -/
theorem rebaseApplied_iff (initialId : SnapshotId) (graph : SemanticGraph)
    (hvalidate : graph.validate = .ok ()) (submissions : List CanonicalChangeSet)
    (cs : CanonicalChangeSet) :
    let final := run (submit nodeHash) (.new initialId graph) submissions
    cs.baseSnapshotId ≠ final.1.liveId →
    ((submit nodeHash final.1 cs).2 =
        .rebaseApplied final.1.liveId (advance final.1.liveId) ↔
      Disjoint (StructuralDiff.fromOps cs.ops).touchedNodes
          (lastDiff (accepted final.2)).touchedNodes ∧
        (apply nodeHash final.1.liveId (rebasedOnto final.1.liveId cs) final.1.graph).1 =
          .applied) := by
  intro final hbase
  have follows : Follows nodeHash initialId graph final.1 final.2 :=
    follows_run initialId ((SemanticGraph.validate_eq_ok_iff graph).1 hvalidate) submissions
  rw [← follows.diff]
  rcases submit_cases nodeHash final.1 cs with
    ⟨hlive, -⟩ | ⟨-, hdisjoint, graph', happly, hsubmit⟩ | ⟨-, hanswer, hcause⟩
  · exact absurd hlive hbase
  · exact iff_of_true (by rw [hsubmit]) ⟨hdisjoint, by rw [happly]⟩
  · refine iff_of_false (fun h => ?_) fun ⟨hdisjoint, happly⟩ => ?_
    · rw [h] at hanswer
      cases hanswer
    · exact hcause.elim (fun h => h happly) fun h => h hdisjoint

/-- A stale creation of an unrelated node is rebased and applied. -/
theorem rebaseApplied_unrelated :
    (submit (fun _ => ⟨[]⟩)
      (run (submit fun _ => ⟨[]⟩) (.new ⟨7⟩ .empty)
        [{ baseSnapshotId := ⟨7⟩,
           ops := [{ payload := .createNode { id := ⟨1⟩, kind := .module, name := "m" } }] }]).1
      { baseSnapshotId := ⟨7⟩,
        ops := [{ payload := .createNode { id := ⟨2⟩, kind := .module, name := "n" } }] }).2 =
      .rebaseApplied ⟨8⟩ ⟨9⟩ :=
  (rebaseApplied_iff (fun _ => ⟨[]⟩) ⟨7⟩ .empty rfl
    [{ baseSnapshotId := ⟨7⟩,
       ops := [{ payload := .createNode { id := ⟨1⟩, kind := .module, name := "m" } }] }]
    { baseSnapshotId := ⟨7⟩,
      ops := [{ payload := .createNode { id := ⟨2⟩, kind := .module, name := "n" } }] }
    (by decide)).2 (by decide)

end Ail.Coordinator
