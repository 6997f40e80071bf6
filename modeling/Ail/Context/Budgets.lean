import Ail.Context.Server

/-!
# Query budgets

A budget limits the bytes of a response, and it has fields for the number
of nodes, their distance from the target and their visibility. The
builder reads the bytes only, so the other limits are kept where there is
nothing for them to leave out.
-/

namespace Ail.Context

open Ail.Core Lib Storage

/-- A path of at most so many edges, in either direction. -/
inductive PathWithin (graph : SemanticGraph) : Nat → NodeRef → NodeRef → Prop
  | here (hops : Nat) (ref : NodeRef) : PathWithin graph hops ref ref
  | step {hops : Nat} {a b ref : NodeRef} (hpath : PathWithin graph hops b ref)
    (hedge : ∃ edge ∈ graph.edges, edge.source = a ∧ edge.target = b ∨
      edge.source = b ∧ edge.target = a) : PathWithin graph (hops + 1) a ref

/-- The limits on nodes. Without an annotation a node is private. -/
structure Meets (budget : QueryBudget) (graph : SemanticGraph) (target : Option NodeRef)
    (nodes : List GraphNode) : Prop where
  count : ∀ limit ∈ budget.maxNodes, nodes.length ≤ limit
  depth : ∀ limit ∈ budget.maxDepth, ∀ start ∈ target, ∀ node ∈ nodes,
    PathWithin graph limit start node.id
  visible : budget.includePrivate = false → ∀ node ∈ nodes,
    node.visibility ∈ [some Visibility.pub, some .internal]

variable {Oid : Type}

structure Honoured (codec : Codec Oid) (query : ContextQuery Oid) (graph : SemanticGraph)
    (candidates : List GraphNode) (slice : ContextSlice Oid) : Prop where
  meets : Meets query.queryBudget graph query.target slice.structured
  bytes : encodedBytes codec slice.structured ≤ query.queryBudget.maxTokens
  truncated : slice.truncated = true ↔ slice.structured.length < candidates.length

/-! ## The selected nodes are nodes of the graph -/

theorem mem_of_nodeAt {graph : SemanticGraph} {ref : NodeRef} {node : GraphNode}
    (hfound : nodeAt graph ref = some node) : node ∈ graph.nodes :=
  List.mem_reverse.1 (List.mem_of_find?_eq_some hfound)

theorem resolve_subset (graph : SemanticGraph) (refs : List NodeRef) :
    resolve graph refs ⊆ graph.nodes := by
  intro node hnode
  obtain ⟨ref, -, hfound⟩ := List.mem_filterMap.1 hnode
  exact mem_of_nodeAt hfound

theorem sortNodes_subset {nodes all : List GraphNode} (h : nodes ⊆ all) : sortNodes nodes ⊆ all :=
  fun _ hnode => h ((List.mem_insertionSort _).1 hnode)

theorem dedupNodes_subset {nodes all : List GraphNode} (h : nodes ⊆ all) :
    dedupNodes nodes ⊆ all :=
  fun _ hnode => h ((List.destutter_sublist _ nodes).mem hnode)

theorem candidatesAt_subset {graph : SemanticGraph} {target : GraphNode}
    (htarget : target ∈ graph.nodes) (query : ContextQuery Oid) :
    candidatesAt graph target query ⊆ graph.nodes := by
  have hwith : ∀ {found}, found ⊆ graph.nodes → withTarget target found ⊆ graph.nodes :=
    fun hfound => sortNodes_subset (dedupNodes_subset (List.cons_subset.2 ⟨htarget, hfound⟩))
  have hresolved : ∀ refs (p : GraphNode → Bool), (resolve graph refs).filter p ⊆ graph.nodes :=
    fun refs p => List.Subset.trans (List.filter_subset_self _) (resolve_subset graph refs)
  have hdestination : ∀ ref, (nodeAt graph ref).toList ⊆ graph.nodes :=
    fun ref node hnode => mem_of_nodeAt (Option.mem_toList.1 hnode)
  unfold candidatesAt
  split
  all_goals first
    | exact resolve_subset graph _
    | exact hwith (resolve_subset graph _)
    | exact hwith (hresolved _ _)
    | exact sortNodes_subset (List.Subset.refl _)
    | exact List.cons_subset.2 ⟨htarget, List.nil_subset _⟩
    | refine dedupNodes_subset (sortNodes_subset (List.cons_subset.2 ⟨htarget, ?_⟩))
      simp only [List.append_subset, hdestination, reverseBfs, bfsFiltered,
        resolve_subset, and_self]

/-- The keys are put beside the nodes. -/
theorem keyNodes_snd {codec : Codec Oid} {index : Nat} {nodes : List GraphNode} {keyed}
    (hkeyed : keyNodes codec index nodes = .ok keyed) : keyed.map (·.2) = nodes := by
  induction nodes generalizing index keyed with
  | nil =>
    cases hkeyed
    rfl
  | cons node nodes ih =>
    obtain ⟨encoded, -, hkeyed⟩ := bind_eq_ok.1 hkeyed
    obtain ⟨rest, hrest, hkeyed⟩ := bind_eq_ok.1 hkeyed
    cases hkeyed
    rw [List.map_cons, ih hrest]

variable [DecidableEq Oid]

theorem unredactedCandidates_subset {codec : Codec Oid} {query : ContextQuery Oid}
    {graph : SemanticGraph} {snapshot : SnapshotEnvelope Oid} {redactedRefs : List NodeRef}
    {opts : BuildOptions Oid} {candidates : List GraphNode}
    (hcandidates :
      unredactedCandidates codec query graph snapshot redactedRefs opts = .ok candidates) :
    candidates ⊆ graph.nodes := by
  obtain ⟨⟨selected, history⟩, hselected, hcandidates⟩ := bind_eq_ok.1 hcandidates
  obtain ⟨_, hcanonical, hcandidates⟩ := bind_eq_ok.1 hcandidates
  obtain ⟨keyed, hkeyed, hcanonical⟩ := bind_eq_ok.1 hcanonical
  cases hcanonical
  cases hcandidates
  have hsub : selected ⊆ graph.nodes := by
    unfold collectCandidatesWithHistory at hselected
    split at hselected
    · cases hselected
      exact sortNodes_subset (List.Subset.refl _)
    · split at hselected
      · cases hselected
      · rename_i target htarget
        cases hselected
        exact candidatesAt_subset (mem_of_nodeAt htarget) query
  intro node hnode
  obtain ⟨pair, hpair, rfl⟩ := List.mem_map.1 (List.mem_filter.1 hnode).1
  exact hsub (keyNodes_snd hkeyed ▸ List.mem_map_of_mem ((List.mem_insertionSort _).1 hpair))

/-! ## Honoured budgets -/

/-- Nothing in the graph is beyond the limits on nodes. -/
structure Idle (budget : QueryBudget) (graph : SemanticGraph) (target : Option NodeRef) : Prop where
  count : budget.maxNodes = none
  depth : ∀ limit ∈ budget.maxDepth, ∀ start ∈ target, ∀ node ∈ graph.nodes,
    PathWithin graph limit start node.id
  visible : budget.includePrivate = false → ∀ node ∈ graph.nodes,
    node.visibility ∈ [some Visibility.pub, some .internal]

section Build

variable {codec : Codec Oid} {query : ContextQuery Oid} {graph : SemanticGraph}
  {snapshot : SnapshotEnvelope Oid} {redactedRefs : List NodeRef} {opts : BuildOptions Oid}
  {slice : ContextSlice Oid} {candidates : List GraphNode}

/-- Every response holds a front part of the candidates that fits into the
bytes, and is called truncated exactly if something is left out. -/
theorem buildFull_budget
    (hbuild : buildFull codec query graph snapshot redactedRefs opts = .ok slice)
    (hcandidates :
      unredactedCandidates codec query graph snapshot redactedRefs opts = .ok candidates) :
    slice.structured <+: candidates ∧
      encodedBytes codec slice.structured ≤ query.queryBudget.maxTokens ∧
      (slice.truncated = true ↔ slice.structured.length < candidates.length) := by
  obtain ⟨-, nodes, result, hnodes, hresult, hstructured, htruncated, -⟩ := buildFull_eq_ok hbuild
  cases hnodes.symm.trans hcandidates
  obtain ⟨hfront, hbytes, -, hall⟩ := applyBudget_spec hresult (Nat.zero_le _)
  rw [Nat.zero_add] at hbytes
  rw [hstructured, htruncated]
  exact ⟨hfront, hbytes, hall⟩

/-- A budget is honoured if nothing in the graph is beyond its limits on
nodes. -/
theorem honoured_of_idle
    (hbuild : buildFull codec query graph snapshot redactedRefs opts = .ok slice)
    (hcandidates :
      unredactedCandidates codec query graph snapshot redactedRefs opts = .ok candidates)
    (hidle : Idle query.queryBudget graph query.target) :
    Honoured codec query graph candidates slice := by
  obtain ⟨hfront, hbytes, htruncated⟩ := buildFull_budget hbuild hcandidates
  have hsubset : slice.structured ⊆ graph.nodes :=
    List.Subset.trans hfront.subset (unredactedCandidates_subset hcandidates)
  refine ⟨⟨?_, ?_, ?_⟩, hbytes, htruncated⟩
  · simp [hidle.count]
  · intro limit hlimit start hstart node hnode
    exact hidle.depth limit hlimit start hstart node (hsubset hnode)
  · intro hprivate node hnode
    exact hidle.visible hprivate node (hsubset hnode)

end Build

namespace Sample

/-- A function and the one it calls. -/
def calling (visibility : Option Visibility) : SemanticGraph :=
  ⟨[{ id := ⟨0⟩, kind := .function, name := "f", visibility },
      { id := ⟨1⟩, kind := .function, name := "g", visibility }],
    [{ source := ⟨0⟩, target := ⟨1⟩, kind := .calls }]⟩

def query (maxDepth : Nat) (maxNodes : Option Nat) : ContextQuery Nat :=
  .node ⟨0⟩ .full { maxDepth := some maxDepth, maxNodes, maxTokens := 100 }

def build (visibility : Option Visibility) (query : ContextQuery Nat) :
    Except ContextError (ContextSlice Nat) :=
  buildFull byteCodec query (calling visibility)
    { id := 0, graphRootHash := 0, parentId := none, createdAt := 0 } [] {}

end Sample

/-- Both nodes are public and at most one edge from the target. -/
theorem honoured_of_idle_public :
    ∃ slice, Sample.build (some .pub) (Sample.query 1 none) = .ok slice ∧
      Honoured byteCodec (Sample.query 1 none) (Sample.calling (some .pub))
        (Sample.calling (some .pub)).nodes slice := by
  refine ⟨_, rfl, honoured_of_idle
    (show Sample.build (some .pub) (Sample.query 1 none) = .ok _ from rfl) (by rfl) ?_⟩
  refine ⟨rfl, ?_, by decide⟩
  rintro _ ⟨⟩ _ ⟨⟩ node hnode
  rcases List.mem_pair.1 hnode with rfl | rfl
  · exact .here 1 _
  · exact .step (.here 0 _) (by decide)

/-- All three limits are exceeded, and nothing is said to be left out. -/
theorem budget_exceeded :
    (Sample.build none (Sample.query 0 (some 1))).toOption.map
        (fun slice => (slice.structured.map fun node => (node.id, node.visibility),
          slice.truncated)) =
      some ([(⟨0⟩, none), (⟨1⟩, none)], false) := by
  decide +kernel

end Ail.Context
