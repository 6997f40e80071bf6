import Ail.Change.Model

/-!
# Atomic application of a changeset

`apply` guards the base snapshot, evaluates the preconditions in order,
runs the ops in order with a validation after each one, and restores the
graph it was given on the first thing that goes wrong.

A by-name payload acts on the FIRST node that carries the name and does
nothing when there is none; it never changes a node's ref. So a payload
can break the structural discipline in two ways only, which `Offends`
names: a created ref that is already there, and an added edge with an
endpoint that is not.

The hash of a node (blake3 over its CBOR encoding) is a parameter.
-/

namespace Ail.Change

open Ail.Core List SemanticGraph

/-! ## Lookups by name -/

/-- The ref of the first node with the name. -/
def nodeIdByName (graph : SemanticGraph) (name : String) : Option NodeRef :=
  (graph.nodes.find? (·.name = name)).map (·.id)

/-- Update the first node with the name (`node_by_name_mut`); without
such a node the graph stays as it is. -/
def nodeByNameMut (graph : SemanticGraph) (name : String) (update : GraphNode → GraphNode) :
    SemanticGraph :=
  { graph with
    nodes := graph.nodes.replaceF fun n => if n.name = name then some (update n) else none }

/-- `push` unless the value is there already. -/
def pushNew {α : Type} [DecidableEq α] (values : List α) (value : α) : List α :=
  if value ∈ values then values else values ++ [value]

/-! ## The mutations of one node -/

def setNodeMetadata (key value : String) (node : GraphNode) : GraphNode :=
  match key with
  | "return" | "type" => { node with returnType := some value }
  | "body" => { node with bodyExpr := some value }
  | _ =>
    let trust := node.trustMetadata.getD ⟨.custom "metadata", []⟩
    { node with
      trustMetadata := some { trust with tags := pushNew trust.tags (key ++ "=" ++ value) } }

def addParam (name ty : String) (node : GraphNode) : GraphNode :=
  let params := node.params.getD []
  { node with
    params := some (if params.any (·.name = name) then params else params ++ [⟨name, ty⟩]) }

def addEffect (effect : String) (node : GraphNode) : GraphNode :=
  let row := node.effectRow.getD ⟨[]⟩
  { node with effectRow := some ⟨pushNew row.effects effect⟩ }

def removeEffect (effect : String) (node : GraphNode) : GraphNode :=
  { node with effectRow := node.effectRow.map fun row => ⟨row.effects.filter (· ≠ effect)⟩ }

/-- Every kind other than `requires` adds to the `ensures` clauses. -/
def addContract (kind rule : String) (node : GraphNode) : GraphNode :=
  let clauses := node.contractClauses.getD ⟨[], []⟩
  let clauses :=
    if kind = "requires" then { clauses with requires := pushNew clauses.requires rule }
    else { clauses with ensures := pushNew clauses.ensures rule }
  { node with contractClauses := some clauses }

def removeContract (rule : String) (node : GraphNode) : GraphNode :=
  { node with contractClauses := node.contractClauses.map fun clauses =>
      ⟨clauses.requires.filter (· ≠ rule), clauses.ensures.filter (· ≠ rule)⟩ }

def addCapabilityReq (capability : String) (node : GraphNode) : GraphNode :=
  let reqs := node.capabilityReqs.getD ⟨[]⟩
  { node with capabilityReqs := some ⟨pushNew reqs.caps capability⟩ }

def removeCapabilityReq (capability : String) (node : GraphNode) : GraphNode :=
  { node with capabilityReqs := node.capabilityReqs.map fun reqs =>
      ⟨reqs.caps.filter (· ≠ capability)⟩ }

/-! ## The mutations of the graph -/

/-- Remove every node with the ref and every edge that touches it. -/
def removeNode (nodeId : NodeRef) (graph : SemanticGraph) : SemanticGraph :=
  ⟨graph.nodes.filter (·.id ≠ nodeId),
    graph.edges.filter fun e => e.source ≠ nodeId ∧ e.target ≠ nodeId⟩

/-- Apply one payload, without validation. -/
def applyPayload (payload : OpPayload) (graph : SemanticGraph) : SemanticGraph :=
  match payload with
  | .createNode node => { graph with nodes := graph.nodes ++ [node] }
  | .addEdge edge => { graph with edges := graph.edges ++ [edge] }
  | .removeNode nodeId => removeNode nodeId graph
  | .setNodeName nodeId name =>
    { graph with nodes :=
        graph.nodes.replaceF fun n => if n.id = nodeId then some { n with name := name } else none }
  | .removeNodeByName name =>
    match nodeIdByName graph name with
    | some nodeId => removeNode nodeId graph
    | none => graph
  | .renameNodeByName target name => nodeByNameMut graph target fun n => { n with name := name }
  | .addEdgeByName source target kind =>
    match nodeIdByName graph source, nodeIdByName graph target with
    | some source, some target => { graph with edges := graph.edges ++ [{ source, target, kind }] }
    | _, _ => graph
  | .removeEdgeByName source target kind =>
    match nodeIdByName graph source, nodeIdByName graph target with
    | some source, some target =>
      { graph with edges :=
          graph.edges.filter fun e => e.source ≠ source ∨ e.target ≠ target ∨ e.kind ≠ kind }
    | _, _ => graph
  | .setReturnByName target ty =>
    nodeByNameMut graph target fun n => { n with returnType := some ty }
  | .setBodyByName target body =>
    nodeByNameMut graph target fun n => { n with bodyExpr := some body }
  | .setMetadataByName target key value => nodeByNameMut graph target (setNodeMetadata key value)
  | .addParamByName target name ty => nodeByNameMut graph target (addParam name ty)
  | .addEffectByName target effect => nodeByNameMut graph target (addEffect effect)
  | .removeEffectByName target effect => nodeByNameMut graph target (removeEffect effect)
  | .addContractByName target kind rule => nodeByNameMut graph target (addContract kind rule)
  | .removeContractByName target rule => nodeByNameMut graph target (removeContract rule)
  | .addCapabilityReqByName target capability =>
    nodeByNameMut graph target (addCapabilityReq capability)
  | .removeCapabilityReqByName target capability =>
    nodeByNameMut graph target (removeCapabilityReq capability)
  | .setVisibilityByName target visibility =>
    nodeByNameMut graph target fun n => { n with visibility := some visibility }
  | .addBindingByName target binding =>
    nodeByNameMut graph target fun n => { n with bindings := pushNew n.bindings binding }
  | .addInferredFactByName target fact =>
    nodeByNameMut graph target fun n => { n with inferred := pushNew n.inferred fact }
  | .addDerivedImplByName target implName =>
    nodeByNameMut graph target fun n => { n with derivedImpls := pushNew n.derivedImpls implName }
  | .addGeneratedArtifactByName target artifact =>
    nodeByNameMut graph target fun n =>
      { n with generatedArtifacts := pushNew n.generatedArtifacts artifact }
  | .addAssertionByName target assertion =>
    nodeByNameMut graph target fun n => { n with assertions := pushNew n.assertions assertion }
  | .setWorkflowStateByName target state =>
    nodeByNameMut graph target fun n => { n with workflowState := some state }
  | .noop => graph

/-! ## Preconditions -/

/-- Two lower-case hex digits of a byte. -/
def hexByte (byte : UInt8) : List Char :=
  [Nat.digitChar (byte.toNat / 16), Nat.digitChar (byte.toNat % 16)]

def BlockHash.hex (hash : BlockHash) : String := String.ofList (hash.bytes.flatMap hexByte)

variable (nodeHash : GraphNode → BlockHash)

/-- `none` when the precondition holds, otherwise the reason it fails. A
context hash may be any leading part of the node's hex digest. -/
def evaluatePrecondition (graph : SemanticGraph) : Precondition → Option String
  | .assertExists nodeId =>
    if graph.nodes.any (·.id = nodeId) then none
    else some ("AssertExists failed: node " ++ nodeId.debug ++ " not found in graph")
  | .assertHash nodeId expectedHash =>
    match graph.nodes.find? (·.id = nodeId) with
    | none => some ("AssertHash failed: node " ++ nodeId.debug ++ " not found in graph")
    | some node =>
      if nodeHash node = expectedHash then none
      else some ("AssertHash failed: node " ++ nodeId.debug ++ " hash mismatch")
  | .assertExistsByName name =>
    if graph.nodes.any (·.name = name) then none
    else some ("AssertExists failed: node '" ++ name ++ "' not found in graph")
  | .assertHashByName name expectedHash =>
    match graph.nodes.find? (·.name = name) with
    | none => some ("AssertHash failed: node '" ++ name ++ "' not found in graph")
    | some node =>
      if nodeHash node = expectedHash then none
      else some ("AssertHash failed: node '" ++ name ++ "' hash mismatch")
  | .assertContext targetName contextHash =>
    match graph.nodes.find? (·.name = targetName) with
    | none => some ("AssertContext failed: node '" ++ targetName ++ "' not found in graph")
    | some node =>
      match contextHash with
      | none => none
      | some expected =>
        if expected.toList <+: (nodeHash node).hex.toList ∨ (nodeHash node).hex = expected then none
        else some ("AssertContext failed: node '" ++ targetName ++ "' context hash mismatch")

/-! ## Application -/

/-- The op loop: one payload, one validation, until the first violation. -/
def applyOps (graph : SemanticGraph) : List CanonicalOp → Except String SemanticGraph
  | [] => .ok graph
  | op :: ops =>
    match (applyPayload op.payload graph).validate with
    | .error err => .error ("graph invariant violated: " ++ err.debug)
    | .ok () => applyOps (applyPayload op.payload graph) ops

/-- The graph is an in-out parameter of the source: the second component
is its value after the call, `rollback` on every failure. -/
def apply (liveId : SnapshotId) (cs : CanonicalChangeSet) (graph : SemanticGraph) :
    ChangeSetOutcome × SemanticGraph :=
  if cs.baseSnapshotId ≠ liveId then (.rebaseRequired liveId, graph)
  else
    let rollback := graph
    match cs.preconditions.findSome? (evaluatePrecondition nodeHash graph) with
    | some reason => (.failed reason, rollback)
    | none =>
      match applyOps graph cs.ops with
      | .error reason => (.failed reason, rollback)
      | .ok graph => (.applied, graph)

/-! ## Which payloads keep a graph valid -/

/-- The two ways a payload can break a valid graph. -/
def Offends (graph : SemanticGraph) : OpPayload → Prop
  | .createNode node => node.id ∈ graph.refs
  | .addEdge edge => edge.source ∉ graph.refs ∨ edge.target ∉ graph.refs
  | _ => False

/-- An update that keeps a key leaves the list of keys as it was. -/
theorem map_replaceF {α β : Type} (key : α → β) (values : List α) (update : α → Option α)
    (keeps : ∀ value value', update value = some value' → key value' = key value) :
    (values.replaceF update).map key = values.map key := by
  induction values with
  | nil => rfl
  | cons value values ih =>
    cases hupdate : update value with
    | none => simp [hupdate, ih]
    | some value' => simp [hupdate, keeps value value' hupdate]

theorem refs_nodeByNameMut (graph : SemanticGraph) (name : String)
    (update : GraphNode → GraphNode) (keeps : ∀ node, (update node).id = node.id) :
    (nodeByNameMut graph name update).refs = graph.refs := by
  refine map_replaceF _ _ _ fun node node' hupdate => ?_
  split at hupdate
  · exact Option.some.inj hupdate ▸ keeps node
  · cases hupdate

variable {graph graph' : SemanticGraph} {ops : List CanonicalOp} {liveId : SnapshotId}
  {cs : CanonicalChangeSet}

theorem nodeByNameMut_valid (valid : graph.Valid) (name : String) (update : GraphNode → GraphNode)
    (keeps : ∀ node, (update node).id = node.id) : (nodeByNameMut graph name update).Valid :=
  valid.congr (refs_nodeByNameMut graph name update keeps) fun _ hmem => hmem

theorem mem_refs_of_nodeIdByName {name : String} {ref : NodeRef}
    (hfound : nodeIdByName graph name = some ref) : ref ∈ graph.refs := by
  obtain ⟨node, hfind, rfl⟩ := Option.map_eq_some_iff.1 hfound
  exact mem_map_of_mem (mem_of_find?_eq_some hfind)

/-- Removing a node takes its edges with it, so nothing is left dangling. -/
theorem removeNode_valid (valid : graph.Valid) (nodeId : NodeRef) :
    (removeNode nodeId graph).Valid := by
  have hrefs : ∀ ref ∈ graph.refs, ref ≠ nodeId → ref ∈ (removeNode nodeId graph).refs := by
    intro ref hmem hne
    obtain ⟨node, hnode, rfl⟩ := mem_map.1 hmem
    exact mem_map_of_mem (mem_filter.2 ⟨hnode, by simpa using hne⟩)
  have hedges : ∀ edge ∈ (removeNode nodeId graph).edges,
      edge ∈ graph.edges ∧ edge.source ≠ nodeId ∧ edge.target ≠ nodeId := by
    intro edge hmem
    simpa [removeNode] using hmem
  refine ⟨?_, fun edge hmem => ?_, fun edge hmem => ?_⟩
  · exact List.Nodup.sublist (List.Sublist.map _ filter_sublist) valid.nodup
  · obtain ⟨hedge, hsource, -⟩ := hedges edge hmem
    exact hrefs _ (valid.source_mem edge hedge) hsource
  · obtain ⟨hedge, -, htarget⟩ := hedges edge hmem
    exact hrefs _ (valid.target_mem edge hedge) htarget

theorem createNode_valid_iff (valid : graph.Valid) (node : GraphNode) :
    (applyPayload (.createNode node) graph).Valid ↔ node.id ∉ graph.refs := by
  have hrefs : (applyPayload (.createNode node) graph).refs = graph.refs ++ [node.id] := by
    simp [applyPayload, refs]
  constructor
  · intro valid' hmem
    have hnodup := valid'.nodup
    rw [hrefs, nodup_append] at hnodup
    exact hnodup.2.2 node.id hmem node.id (by simp) rfl
  · intro hfresh
    refine ⟨?_, fun edge hmem => ?_, fun edge hmem => ?_⟩
    · rw [hrefs]
      exact List.Nodup.append valid.nodup (nodup_singleton _) (by simpa using hfresh)
    · exact hrefs ▸ mem_append_left _ (valid.source_mem edge hmem)
    · exact hrefs ▸ mem_append_left _ (valid.target_mem edge hmem)

theorem addEdge_valid_iff (valid : graph.Valid) (edge : GraphEdge) :
    (SemanticGraph.mk graph.nodes (graph.edges ++ [edge])).Valid ↔
      edge.source ∈ graph.refs ∧ edge.target ∈ graph.refs := by
  constructor
  · intro valid'
    exact ⟨valid'.source_mem edge (by simp), valid'.target_mem edge (by simp)⟩
  · rintro ⟨hsource, htarget⟩
    refine ⟨valid.nodup, fun other hmem => ?_, fun other hmem => ?_⟩
    all_goals
      rcases mem_append.1 hmem with hold | hnew
      · first | exact valid.source_mem other hold | exact valid.target_mem other hold
      · obtain rfl := mem_singleton.1 hnew
        assumption

/-- On a valid graph a payload leaves a valid graph exactly when it does
not offend: the by-name payloads, the removals and `noop` never do. -/
theorem applyPayload_valid_iff (valid : graph.Valid) (payload : OpPayload) :
    (applyPayload payload graph).Valid ↔ ¬ Offends graph payload := by
  cases payload with
  | createNode node => exact createNode_valid_iff valid node
  | addEdge edge =>
    rw [Offends, not_or, not_not, not_not]
    exact addEdge_valid_iff valid edge
  | removeNode nodeId => exact iff_of_true (removeNode_valid valid nodeId) not_false
  | setNodeName nodeId name =>
    refine iff_of_true (valid.congr (map_replaceF _ _ _ fun node node' hupdate => ?_)
      fun _ hmem => hmem) not_false
    split at hupdate
    · rw [← Option.some.inj hupdate]
    · cases hupdate
  | removeNodeByName name =>
    refine iff_of_true ?_ not_false
    simp only [applyPayload]
    split
    · exact removeNode_valid valid _
    · exact valid
  | addEdgeByName source target kind =>
    refine iff_of_true ?_ not_false
    simp only [applyPayload]
    split
    · rename_i hsource htarget
      exact (addEdge_valid_iff valid _).2
        ⟨mem_refs_of_nodeIdByName hsource, mem_refs_of_nodeIdByName htarget⟩
    · exact valid
  | removeEdgeByName source target kind =>
    refine iff_of_true ?_ not_false
    simp only [applyPayload]
    split
    · exact valid.congr rfl fun edge hmem => (mem_filter.1 hmem).1
    · exact valid
  | setMetadataByName target key value =>
    refine iff_of_true (nodeByNameMut_valid valid target _ fun node => ?_) not_false
    unfold setNodeMetadata
    split <;> rfl
  | noop => exact iff_of_true valid not_false
  | _ => exact iff_of_true (nodeByNameMut_valid valid _ _ fun _ => rfl) not_false

/-! ## The op loop -/

theorem applyOps_valid (valid : graph.Valid) (hops : applyOps graph ops = .ok graph') :
    graph'.Valid := by
  induction ops generalizing graph with
  | nil => exact Except.ok.inj hops ▸ valid
  | cons op ops ih =>
    simp only [applyOps] at hops
    split at hops
    · cases hops
    · rename_i hvalidate
      exact ih ((validate_eq_ok_iff _).1 hvalidate) hops

/-- A successful loop is the plain composition of its payloads. -/
theorem applyOps_eq_foldl (hops : applyOps graph ops = .ok graph') :
    graph' = ops.foldl (fun running op => applyPayload op.payload running) graph := by
  induction ops generalizing graph with
  | nil => exact (Except.ok.inj hops).symm
  | cons op ops ih =>
    simp only [applyOps] at hops
    split at hops
    · cases hops
    · exact ih hops

/-- One turn of the loop on a valid graph fails exactly on an offence. -/
theorem applyOps_cons_of_valid (valid : graph.Valid) (op : CanonicalOp) (ops : List CanonicalOp) :
    (Offends graph op.payload ∧ ∃ reason, applyOps graph (op :: ops) = .error reason) ∨
      (¬ Offends graph op.payload ∧ (applyPayload op.payload graph).Valid ∧
        applyOps graph (op :: ops) = applyOps (applyPayload op.payload graph) ops) := by
  have hiff := applyPayload_valid_iff valid op.payload
  have hvalidate := validate_eq_ok_iff (applyPayload op.payload graph)
  simp only [applyOps]
  cases hresult : (applyPayload op.payload graph).validate with
  | error err =>
    have hinvalid : ¬ (applyPayload op.payload graph).Valid := by
      rw [← hvalidate, hresult]
      exact fun h => nomatch h
    exact .inl ⟨by_contra fun h => hinvalid (hiff.2 h), _, rfl⟩
  | ok _ =>
    have hvalid := hvalidate.1 hresult
    exact .inr ⟨hiff.1 hvalid, hvalid, rfl⟩

/-- The loop fails exactly when some op offends the graph that the ops
before it left. -/
theorem applyOps_error_iff (valid : graph.Valid) (ops : List CanonicalOp) :
    (∃ reason, applyOps graph ops = .error reason) ↔
      ∃ earlier op later running, ops = earlier ++ op :: later ∧
        applyOps graph earlier = .ok running ∧ Offends running op.payload := by
  induction ops generalizing graph with
  | nil => simp [applyOps]
  | cons op ops ih =>
    rcases applyOps_cons_of_valid valid op ops with ⟨hoffends, herror⟩ | ⟨hkeeps, hvalid, hstep⟩
    · exact iff_of_true herror ⟨[], op, ops, graph, rfl, rfl, hoffends⟩
    · have hcons : ∀ rest, applyOps graph (op :: rest) =
        applyOps (applyPayload op.payload graph) rest :=
        fun rest => (applyOps_cons_of_valid valid op rest).elim (fun h => absurd h.1 hkeeps) (·.2.2)
      rw [hstep, ih hvalid]
      constructor
      · rintro ⟨earlier, offender, later, running, rfl, hearlier, hoffends⟩
        exact ⟨op :: earlier, offender, later, running, rfl, by rw [hcons, hearlier], hoffends⟩
      · rintro ⟨earlier, offender, later, running, hsplit, hearlier, hoffends⟩
        cases earlier with
        | nil =>
          -- The offender would be the first op, which was just seen to keep the graph.
          cases hsplit
          cases hearlier
          exact absurd hoffends hkeeps
        | cons first earlier =>
          cases hsplit
          exact ⟨earlier, offender, later, running, rfl, by rw [← hcons, hearlier], hoffends⟩

/-! ## Application as a whole -/

/-- Everything an application can do: the three answers, each with its
cause and the graph it leaves. -/
theorem apply_cases (liveId : SnapshotId) (cs : CanonicalChangeSet) (graph : SemanticGraph) :
    (cs.baseSnapshotId ≠ liveId ∧
      apply nodeHash liveId cs graph = (.rebaseRequired liveId, graph)) ∨
    (cs.baseSnapshotId = liveId ∧ ∃ reason,
      apply nodeHash liveId cs graph = (.failed reason, graph) ∧
        (cs.preconditions.findSome? (evaluatePrecondition nodeHash graph) = some reason ∨
          cs.preconditions.findSome? (evaluatePrecondition nodeHash graph) = none ∧
            applyOps graph cs.ops = .error reason)) ∨
    (cs.baseSnapshotId = liveId ∧ ∃ graph',
      apply nodeHash liveId cs graph = (.applied, graph') ∧
        cs.preconditions.findSome? (evaluatePrecondition nodeHash graph) = none ∧
        applyOps graph cs.ops = .ok graph') := by
  unfold apply
  by_cases hbase : cs.baseSnapshotId = liveId
  · refine .inr ?_
    simp only [hbase, ne_eq, true_and]
    cases hpre : cs.preconditions.findSome? (evaluatePrecondition nodeHash graph) with
    | some reason => exact .inl ⟨reason, rfl, .inl rfl⟩
    | none =>
      cases hops : applyOps graph cs.ops with
      | error reason => exact .inl ⟨reason, rfl, .inr ⟨rfl, rfl⟩⟩
      | ok graph' => exact .inr ⟨graph', rfl, rfl, rfl⟩
  · exact .inl ⟨hbase, by simp [hbase]⟩

theorem apply_eq_applied_iff (liveId : SnapshotId) (cs : CanonicalChangeSet)
    (graph graph' : SemanticGraph) :
    apply nodeHash liveId cs graph = (.applied, graph') ↔
      cs.baseSnapshotId = liveId ∧
        cs.preconditions.findSome? (evaluatePrecondition nodeHash graph) = none ∧
        applyOps graph cs.ops = .ok graph' := by
  rcases apply_cases nodeHash liveId cs graph with
    ⟨hbase, h⟩ | ⟨hbase, reason, h, hcause⟩ | ⟨hbase, found, h, hpre, hops⟩
  · simp [h, hbase]
  · rcases hcause with hpre | ⟨hpre, hops⟩
    · simp [h, hpre]
    · simp [h, hops]
  · simp [h, hbase, hpre, hops]

/-- An answer other than `applied` leaves the graph as it was. -/
theorem apply_unchanged (hanswer : (apply nodeHash liveId cs graph).1 ≠ .applied) :
    (apply nodeHash liveId cs graph).2 = graph := by
  rcases apply_cases nodeHash liveId cs graph with
    ⟨-, h⟩ | ⟨-, reason, h, -⟩ | ⟨-, graph', h, -⟩
  · rw [h]
  · rw [h]
  · exact absurd (by rw [h]) hanswer

theorem apply_valid (valid : graph.Valid) : (apply nodeHash liveId cs graph).2.Valid := by
  rcases apply_cases nodeHash liveId cs graph with
    ⟨-, h⟩ | ⟨-, reason, h, -⟩ | ⟨-, graph', h, -, hops⟩
  · rw [h]; exact valid
  · rw [h]; exact valid
  · rw [h]; exact applyOps_valid valid hops

/-- Atomicity, validity and the exact causes of failure: an application
that does not answer `applied` changes nothing; one that does leaves a
graph that validates; when the preconditions hold, it answers `failed`
exactly when the base is the live one and some op, at the point where it
runs, re-uses a ref or names an absent endpoint; and every payload that
does neither keeps every valid graph valid. -/
theorem apply_atomic_and_failure_exact (liveId : SnapshotId) (cs : CanonicalChangeSet)
    (graph : SemanticGraph) (hvalidate : graph.validate = .ok ()) :
    ((apply nodeHash liveId cs graph).1 ≠ .applied →
      (apply nodeHash liveId cs graph).2 = graph) ∧
    ((apply nodeHash liveId cs graph).1 = .applied →
      (apply nodeHash liveId cs graph).2.validate = .ok ()) ∧
    ((∀ precondition ∈ cs.preconditions, evaluatePrecondition nodeHash graph precondition = none) →
      ((∃ reason, (apply nodeHash liveId cs graph).1 = .failed reason) ↔
        cs.baseSnapshotId = liveId ∧
          ∃ earlier op later running, cs.ops = earlier ++ op :: later ∧
            applyOps graph earlier = .ok running ∧ Offends running op.payload)) ∧
    (∀ running payload, running.validate = .ok () →
      ((applyPayload payload running).validate = .ok () ↔ ¬ Offends running payload)) := by
  have valid := (validate_eq_ok_iff graph).1 hvalidate
  refine ⟨apply_unchanged nodeHash, fun _ => ?_, fun hpreconditions => ?_,
    fun running payload h => ?_⟩
  · exact (validate_eq_ok_iff _).2 (apply_valid nodeHash valid)
  · have hpre := findSome?_eq_none_iff.2 hpreconditions
    rw [← applyOps_error_iff valid]
    rcases apply_cases nodeHash liveId cs graph with
      ⟨hbase, h⟩ | ⟨hbase, reason, h, hcause⟩ | ⟨hbase, graph', h, -, hops⟩
    · simp [h, hbase]
    · rcases hcause with hfails | ⟨-, hops⟩
      · exact absurd hfails (by simp [hpre])
      · simp [h, hbase, hops]
    · simp [h, hops]
  · rw [validate_eq_ok_iff] at h ⊢
    exact applyPayload_valid_iff h payload

/-- Re-creating ref 1 on a graph that holds it is such a failure. -/
theorem apply_recreate_fails :
    SemanticGraph.validate ⟨[{ id := ⟨1⟩, kind := .module, name := "m" }], []⟩ = .ok () ∧
    ∃ reason, (apply (fun _ => ⟨[]⟩) ⟨0⟩
      { ops := [{ payload := .createNode { id := ⟨1⟩, kind := .function, name := "f" } }] }
      ⟨[{ id := ⟨1⟩, kind := .module, name := "m" }], []⟩).1 = .failed reason :=
  ⟨by decide, ((apply_atomic_and_failure_exact _ _ _ _ (by decide)).2.2.1 (by decide)).2
    ⟨rfl, [], _, [], _, rfl, rfl, by simp [Offends, refs]⟩⟩

end Ail.Change
