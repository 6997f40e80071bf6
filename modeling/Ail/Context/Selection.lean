import Ail.Lib.Worklist
import Ail.Storage.Object

/-!
# Context queries and the nodes they select

A `ContextQuery` names a slice of the semantic graph, and
`collectCandidatesWithHistory` is the traversal that finds its nodes:
the target alone, its neighbours, what is reachable from it or reaches it
along some kinds of edges, or the whole graph (`ail-context`,
`dto/query.rs` and `selection.rs`). The infos of impact and refactor
queries are computed from nodes already selected.

Lookups by ref go through a map built from the node list, so of two nodes
with one ref the LAST is found.
-/

namespace Ail.Context

open Ail.Core Lib Storage

/-! ## Queries -/

/-- A zero `maxTokens` is rejected; it is the byte budget of the answer. -/
structure QueryBudget where
  maxDepth : Option Nat := none
  maxNodes : Option Nat := none
  maxTokens : Nat
  includePrivate : Bool := false
  includeTransitive : Bool := true
  includeRuntimeLogs : Bool := false
  profile : Option String := none

def QueryBudget.effectiveBytes (budget : QueryBudget) : Nat := budget.maxTokens

inductive QueryScope where
  | localScope | full

inductive SnapshotSelector (Oid : Type) where
  | byId (id : Oid)
  | latest

inductive ContextQuery (Oid : Type) where
  | node (target : NodeRef) (scope : QueryScope) (budget : QueryBudget)
  | graph (scope : QueryScope) (budget : QueryBudget)
  | impact (target : NodeRef) (budget : QueryBudget)
  | callers (target : NodeRef) (transitive : Bool) (budget : QueryBudget)
  | callees (target : NodeRef) (transitive : Bool) (budget : QueryBudget)
  | effects (target : NodeRef) (budget : QueryBudget)
  | contracts (target : NodeRef) (budget : QueryBudget)
  | history (target : NodeRef) (budget : QueryBudget)
  | proofs (target : NodeRef) (budget : QueryBudget)
  | resources (target : NodeRef) (budget : QueryBudget)
  | boundaries (target : NodeRef) (budget : QueryBudget)
  | why (target : NodeRef) (budget : QueryBudget)
  | refactorContext (target : NodeRef) (budget : QueryBudget)
  | runtime (target : NodeRef) (profile : String) (budget : QueryBudget)
  | diff (snapshotA snapshotB : Option Oid) (budget : QueryBudget)
  | risks (target : NodeRef) (budget : QueryBudget)
  | todo (target : NodeRef) (budget : QueryBudget)
  | capabilities (target : NodeRef) (profile : String) (budget : QueryBudget)
  | handlers (target : NodeRef) (profile : String) (budget : QueryBudget)
  | concurrency (target : NodeRef) (budget : QueryBudget)
  | tasks (target : NodeRef) (budget : QueryBudget)
  | assumptions (target : NodeRef) (budget : QueryBudget)
  | extractCandidates (target : NodeRef) (budget : QueryBudget)
  | moveSafety (target destination : NodeRef) (budget : QueryBudget)

variable {Oid : Type}

def ContextQuery.queryBudget : ContextQuery Oid → QueryBudget
  | .node _ _ budget | .graph _ budget | .impact _ budget | .callers _ _ budget
  | .callees _ _ budget | .effects _ budget | .contracts _ budget | .history _ budget
  | .proofs _ budget | .resources _ budget | .boundaries _ budget | .why _ budget
  | .refactorContext _ budget | .runtime _ _ budget | .diff _ _ budget | .risks _ budget
  | .todo _ budget | .capabilities _ _ budget | .handlers _ _ budget | .concurrency _ budget
  | .tasks _ budget | .assumptions _ budget | .extractCandidates _ budget
  | .moveSafety _ _ budget => budget

def ContextQuery.budget (query : ContextQuery Oid) : Nat := query.queryBudget.effectiveBytes

def ContextQuery.target : ContextQuery Oid → Option NodeRef
  | .graph _ _ | .diff _ _ _ => none
  | .node target _ _ | .impact target _ | .callers target _ _ | .callees target _ _
  | .effects target _ | .contracts target _ | .history target _ | .proofs target _
  | .resources target _ | .boundaries target _ | .why target _ | .refactorContext target _
  | .runtime target _ _ | .risks target _ | .todo target _ | .capabilities target _ _
  | .handlers target _ _ | .concurrency target _ | .tasks target _ | .assumptions target _
  | .extractCandidates target _ | .moveSafety target _ _ => some target

/-! ## Errors -/

inductive ContextError where
  | stale | nodeNotFound | invalidBudget
  | codec (message : String)
  | accessDenied | budgetExceeded | indexStale | snapshotNotFound | redactionRequired
  | queryAmbiguous

def ContextError.display : ContextError → String
  | .stale => "E_CONTEXT_STALE: snapshot or graph root not found in store"
  | .nodeNotFound => "E_NODE_NOT_FOUND: queried node ref absent from graph"
  | .invalidBudget => "E_INVALID_BUDGET: budget must be greater than zero"
  | .codec message => "E_CODEC: " ++ message
  | .accessDenied => "E_ACCESS_DENIED: caller lacks permission to access this context slice"
  | .budgetExceeded =>
    "E_BUDGET_EXCEEDED: budget exhausted before any node could be included; " ++
      "increase the budget or narrow the query scope"
  | .indexStale =>
    "E_INDEX_STALE: derived index is behind the current snapshot; rebuild the index and retry"
  | .snapshotNotFound => "E_SNAPSHOT_NOT_FOUND: requested snapshot id not found in store"
  | .redactionRequired =>
    "E_REDACTION_REQUIRED: redaction policy required to access this context slice"
  | .queryAmbiguous => "E_QUERY_AMBIGUOUS: query target matches multiple nodes; narrow the query"

/-! ## Traversals -/

variable (graph : SemanticGraph)

/-- `node_map.get`. -/
def nodeAt (ref : NodeRef) : Option GraphNode :=
  graph.nodes.reverse.find? (·.id = ref)

def sortRefs (refs : List NodeRef) : List NodeRef := refs.insertionSort fun a b => a.val ≤ b.val

/-- `sort_by_key(|n| n.id)`, a stable sort. -/
def sortNodes (nodes : List GraphNode) : List GraphNode :=
  nodes.insertionSort fun a b => a.id.val ≤ b.id.val

/-- `dedup_by_key(|n| n.id)`: only neighbours are compared. -/
def dedupNodes (nodes : List GraphNode) : List GraphNode :=
  nodes.destutter fun a b => a.id ≠ b.id

def resolve (refs : List NodeRef) : List GraphNode :=
  (sortRefs refs).filterMap (nodeAt graph)

/-- The targets of the edges that leave a node, in edge order. -/
def outgoing (kept : EdgeKind → Bool) (ref : NodeRef) : List NodeRef :=
  (graph.edges.filter fun e => e.source = ref ∧ kept e.kind).map (·.target)

/-- The sources of the edges that reach a node, in edge order. -/
def incoming (kept : EdgeKind → Bool) (ref : NodeRef) : List NodeRef :=
  (graph.edges.filter fun e => e.target = ref ∧ kept e.kind).map (·.source)

/-- The refs a queue-driven search visits, the start first. Each edge
adds one ref at most, so there are no more turns than edges, and one. -/
def search (next : NodeRef → List NodeRef) (start : NodeRef) : List NodeRef :=
  saturate next (graph.edges.length + 1) [start] [start]

variable (start : NodeRef)

def bfsForward : List GraphNode :=
  resolve graph (search graph (outgoing graph fun _ => true) start)

variable (kinds : List EdgeKind)

def bfsFiltered : List GraphNode :=
  resolve graph (search graph (outgoing graph (· ∈ kinds)) start).tail

def reverseBfs : List GraphNode :=
  resolve graph (search graph (incoming graph (· ∈ kinds)) start).tail

/-- One hop; the refs are collected in a set. -/
def directForward : List GraphNode :=
  resolve graph (outgoing graph (· ∈ kinds) start).dedup

def directReverse : List GraphNode :=
  resolve graph (incoming graph (· ∈ kinds) start).dedup

section History

variable [DecidableEq Oid]

/-- The walk along `parent_id`, at most `hops` further. -/
def parentChain (allSnapshots : List (SnapshotEnvelope Oid)) :
    Nat → SnapshotEnvelope Oid → List (SnapshotEnvelope Oid)
  | 0, snapshot => [snapshot]
  | hops + 1, snapshot =>
    snapshot :: match snapshot.parentId.bind fun pid => allSnapshots.reverse.find? (·.id = pid) with
      | some parent => parentChain allSnapshots hops parent
      | none => []

/-- The chain of a snapshot, oldest first. The guard of the source stops
the walk after one snapshot more than there are, and one. -/
def buildHistoryChain (current : SnapshotEnvelope Oid)
    (allSnapshots : List (SnapshotEnvelope Oid)) :
    List (SnapshotEnvelope Oid) :=
  (parentChain allSnapshots (allSnapshots.length + 1) current).reverse

/-! ## Candidates -/

variable (target : GraphNode)

/-- The target in front of the nodes found, neighbours deduplicated,
sorted by ref. -/
def withTarget (found : List GraphNode) : List GraphNode :=
  sortNodes (dedupNodes (target :: found))

/-- The target and what it reaches along `kinds`. -/
def targetAndReached (kinds : List EdgeKind) : List GraphNode :=
  withTarget target (bfsFiltered graph target.id kinds)

/-- The target and the boundaries it reaches along any edge. -/
def targetAndBoundaries : List GraphNode :=
  withTarget target ((bfsForward graph target.id).filter (·.kind = .boundary))

/-- What is called from outside the inner set, the target apart. -/
def hasExternalCallers (inner : List GraphNode) (target : NodeRef) (node : GraphNode) : Bool :=
  graph.edges.any fun e =>
    e.target = node.id ∧ e.kind = .calls ∧ e.source ∉ inner.map (·.id) ∧ e.source ≠ target

/-- The nodes a query with a target selects, once the target is found. -/
def candidatesAt :
    ContextQuery Oid → List GraphNode
  | .node _ .localScope _ => [target]
  | .node ref .full _ => bfsForward graph ref
  | .impact ref _ =>
    reverseBfs graph ref [.breaksIfChanged, .dependsOn, .calls, .reads, .writes]
  | .callers ref true _ => reverseBfs graph ref [.calls, .dynCalls]
  | .callers ref false _ => directReverse graph ref [.calls, .dynCalls]
  | .callees ref true _ => bfsFiltered graph ref [.calls, .dynCalls]
  | .callees ref false _ => directForward graph ref [.calls, .dynCalls]
  | .contracts _ _ | .history _ _ => [target]
  | .effects _ _ | .runtime _ _ _ => targetAndReached graph target [.emits]
  | .proofs _ _ | .todo _ _ => targetAndReached graph target [.proves]
  | .resources _ _ => targetAndReached graph target [.reads, .writes]
  | .boundaries _ _ | .assumptions _ _ => targetAndBoundaries graph target
  | .why _ _ => targetAndReached graph target [.proves, .breaksIfChanged]
  | .refactorContext ref _ =>
    dedupNodes (sortNodes (target :: (reverseBfs graph ref [.calls, .dynCalls] ++
      bfsFiltered graph ref [.proves] ++ bfsFiltered graph ref [.emits])))
  | .risks _ _ => targetAndReached graph target [.breaksIfChanged]
  | .capabilities _ _ _ => targetAndReached graph target [.emits, .dependsOn]
  | .handlers ref _ _ => withTarget target (reverseBfs graph ref [.calls])
  | .concurrency _ _ => targetAndReached graph target [.reads, .writes, .calls, .dynCalls]
  | .tasks _ _ => targetAndReached graph target [.calls, .emits]
  | .extractCandidates ref _ =>
    let inner := bfsFiltered graph ref [.calls, .dependsOn]
    withTarget target (inner.filter fun node => !hasExternalCallers graph inner ref node)
  | .moveSafety ref destination _ =>
    dedupNodes (sortNodes (target :: ((nodeAt graph destination).toList ++
      reverseBfs graph ref [.calls] ++ bfsFiltered graph ref [.proves] ++
      bfsFiltered graph ref [.emits])))
  | .graph _ _ | .diff _ _ _ => sortNodes graph.nodes

/-- The selected nodes, and the history of a `history` or `why` query. A
query without a target selects the whole graph. -/
def collectCandidatesWithHistory (query : ContextQuery Oid) (graph : SemanticGraph)
    (snapshot : SnapshotEnvelope Oid) (allSnapshots : List (SnapshotEnvelope Oid)) :
    Except ContextError (List GraphNode × List (SnapshotEnvelope Oid)) :=
  match query.target with
  | none => .ok (sortNodes graph.nodes, [])
  | some ref =>
    match nodeAt graph ref with
    | none => .error .nodeNotFound
    | some target =>
      let history := match query with
        | .history _ _ | .why _ _ => buildHistoryChain snapshot allSnapshots
        | _ => []
      .ok (candidatesAt graph target query, history)

end History

/-! ## Infos computed from the selected nodes -/

structure ImpactInfo where
  affectedTests : List NodeRef
  affectedCapabilities : List NodeRef
  affectedPublicApis : List NodeRef
  requiredReverification : Nat
  riskLevel : String

/-- The refs of the nodes with a property. -/
def refsWhere (nodes : List GraphNode) (p : GraphNode → Bool) : List NodeRef :=
  (nodes.filter p).map (·.id)

def riskLevel (riskCount : Nat) : String :=
  if riskCount = 0 then "none"
  else if riskCount ≤ 3 then "low"
  else if riskCount ≤ 10 then "medium"
  else "high"

def computeImpactInfo (affected : List GraphNode) : ImpactInfo :=
  let affectedPublicApis := refsWhere affected (·.visibility = some .pub)
  let requiredReverification :=
    (affected.filter fun n => n.kind = .contract ∨ n.kind = .invariant).length
  { affectedTests := refsWhere affected (·.kind = .test)
    affectedCapabilities := refsWhere affected (·.kind = .capability)
    affectedPublicApis
    requiredReverification
    riskLevel := riskLevel (affectedPublicApis.length + requiredReverification) }

structure RefactorInfo where
  behaviorLocksNeeded : List NodeRef
  contractsToPreserve : List NodeRef
  effectsToPreserve : List NodeRef
  callersToUpdate : List NodeRef
  proofsToRerun : List NodeRef
  possibleConflicts : List NodeRef
  suggestedRefactorOps : List String

def computeRefactorInfo (structured : List GraphNode) (target : NodeRef) (graph : SemanticGraph) :
    RefactorInfo where
  behaviorLocksNeeded := refsWhere structured (·.workflowState = some .locked)
  contractsToPreserve := refsWhere structured fun n => n.kind = .contract ∨ n.kind = .invariant
  effectsToPreserve := refsWhere structured fun n => n.kind = .effect ∨ n.kind = .effectAlias
  callersToUpdate := refsWhere structured fun n =>
    n.id ≠ target ∧
      graph.edges.any fun e => e.source = n.id ∧ e.target = target ∧ e.kind = .calls
  proofsToRerun := refsWhere structured fun n =>
    graph.edges.any fun e => e.source = target ∧ e.target = n.id ∧ e.kind = .proves
  possibleConflicts := refsWhere structured fun n =>
    n.id ≠ target ∧ graph.edges.any fun e =>
      (e.source = n.id ∨ e.target = n.id) ∧ e.kind = .breaksIfChanged
  suggestedRefactorOps := []

/-- The nodes an impact info names. -/
def ImpactInfo.refs (info : ImpactInfo) : List NodeRef :=
  info.affectedTests ++ info.affectedCapabilities ++ info.affectedPublicApis

/-- The nodes a refactor info names. -/
def RefactorInfo.refs (info : RefactorInfo) : List NodeRef :=
  info.behaviorLocksNeeded ++ info.contractsToPreserve ++ info.effectsToPreserve ++
    info.callersToUpdate ++ info.proofsToRerun ++ info.possibleConflicts

variable {nodes : List GraphNode} {ref : NodeRef}

theorem mem_of_mem_refsWhere {p : GraphNode → Bool} (hmem : ref ∈ refsWhere nodes p) :
    ref ∈ nodes.map (·.id) :=
  (List.filter_sublist.map _).mem hmem

theorem mem_of_mem_computeImpactInfo (hmem : ref ∈ (computeImpactInfo nodes).refs) :
    ref ∈ nodes.map (·.id) := by
  simp only [ImpactInfo.refs, List.mem_append] at hmem
  rcases hmem with (h | h) | h <;> exact mem_of_mem_refsWhere h

theorem mem_of_mem_computeRefactorInfo {target : NodeRef} {graph : SemanticGraph}
    (hmem : ref ∈ (computeRefactorInfo nodes target graph).refs) : ref ∈ nodes.map (·.id) := by
  simp only [RefactorInfo.refs, List.mem_append] at hmem
  rcases hmem with ((((h | h) | h) | h) | h) | h <;> exact mem_of_mem_refsWhere h

end Ail.Context
