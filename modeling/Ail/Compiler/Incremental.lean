import Ail.Compiler.ParserFacts
import Ail.Core.Validation
import Ail.Lib.Run
import Ail.Lib.Worklist
import Ail.Verify.Report

/-!
# Full and incremental lowering of a graph

`lowerToCoreIr` lowers a whole graph (`lower.rs`); `compileIncremental`
(`incremental.rs`) compares node hashes with those of an earlier
version, marks what changed and its transitive callers dirty, rebuilds
the dirty nodes and takes the others from a cache.

The incremental path builds its nodes without their body expression, in
both branches, so it agrees with the full path exactly on the graphs
whose functions have none (`compileIncremental_refines_iff`).

Hashing is a parameter. The encoding it works on (CBOR into memory) is
taken not to fail.
-/

namespace Ail.Compiler

open Ail.Core Verify Lib List

variable {Digest : Type} [DecidableEq Digest] {ref : NodeRef} {digest : Digest}
  {nodes : List CoreNode}

inductive CompileError where
  | rejectedReport
  | invalidGraph (message : String)
  | missingNode (ref : NodeRef)
  /-- Not an error value: the parser panicked. -/
  | panicked

/-- The seals of the first stage. -/
structure StageHashes (Digest : Type) where
  graphSnapshotHash : Digest
  verificationReportHash : Digest
  coreIrHash : Digest

structure CoreIr (Digest : Type) where
  nodes : List CoreNode
  stageHashes : StageHashes Digest

/-- The hashes of encoded values; `coreIr` chains to the hash of the graph. -/
structure Hasher (Digest : Type) where
  node : GraphNode → Digest
  graph : SemanticGraph → Digest
  report : VerificationReport → Digest
  coreIr : Digest → List CoreNode → Digest

/-- The stage hashes of nodes lowered from a graph. -/
def Hasher.seal (hasher : Hasher Digest) (graph : SemanticGraph) (report : VerificationReport)
    (nodes : List CoreNode) : StageHashes Digest :=
  ⟨hasher.graph graph, hasher.report report, hasher.coreIr (hasher.graph graph) nodes⟩

def isReportAccepted (report : VerificationReport) : Bool :=
  match report.summary with
  | .proven | .runtimeChecked => true
  | _ => false

/-- The two gates both paths start with. -/
def checkInputs (graph : SemanticGraph) (report : VerificationReport) : Except CompileError Unit :=
  if !isReportAccepted report then .error .rejectedReport
  else
    match graph.validate with
    | .ok () => .ok ()
    | .error (.duplicateRef ref) =>
      .error (.invalidGraph ("duplicate NodeRef(" ++ toString ref.val ++ ")"))
    | .error (.danglingEdge ref _) => .error (.missingNode ref)

/-! ## The body of a node -/

/-- A literal body in the legacy form of a first runtime check. -/
def literalExprFromRuntimeChecks (checks : Option (List RuntimeCheckMeta)) : Option CoreExpr := do
  let check ← (← checks).head?
  let text ← "literal:i64=".toList.isPrefixOf? check.predicate.toList
  let value ← i64FromStr text
  some (.literal (.int value))

/-- A body text that names an external implementation. -/
def isExternalBody (body : String) : Bool :=
  (body.toList.dropWhile isWhitespace).head? = some '@'

variable (std : RustStd) (node : GraphNode)

def exprFromGraphNode : Except CompileError (Option CoreExpr) :=
  match node.bodyExpr with
  | some body =>
    if isExternalBody body then .ok none
    else
      match parseExpr std body with
      | .ok e => .ok (some e)
      | .error (.error message) => .error (.invalidGraph (node.name ++ " body: " ++ message))
      | .error _ => .error .panicked
  | none => .ok (literalExprFromRuntimeChecks node.runtimeChecks)

/-- A node with everything but its body. -/
def coreNodeOf (expr : Option CoreExpr) : CoreNode :=
  ⟨node.id, mapNodeKind node.kind, node.name,
    node.typeFacts.map fun facts => nominalToCoreType facts.nominal, expr⟩

/-! ## The full path -/

def lowerNode : Except CompileError CoreNode := do
  let expr ← if node.kind = .function then exprFromGraphNode std node else .ok none
  .ok (coreNodeOf node expr)

def lowerToCoreIr (hasher : Hasher Digest) (std : RustStd) (graph : SemanticGraph)
    (report : VerificationReport) : Except CompileError (CoreIr Digest) := do
  checkInputs graph report
  let nodes ← graph.nodes.mapM (lowerNode std)
  .ok ⟨nodes, hasher.seal graph report nodes⟩

/-! ## The incremental path -/

/-- The hashes of one version of the graph, by node. -/
abbrev NodeHashes (Digest : Type) := NodeRef → Option Digest

def computeNodeHashes (hasher : Hasher Digest) (graph : SemanticGraph) : NodeHashes Digest :=
  graph.nodes.foldl (fun hashes node => Function.update hashes node.id (some (hasher.node node)))
    fun _ => none

structure ArtifactEntry (Digest : Type) where
  stageHashes : StageHashes Digest
  nodeCount : Nat

/-- The artifact cache, by the content hash of a node. -/
abbrev ArtifactCache (Digest : Type) := Digest → Option (ArtifactEntry Digest)

/-- `NodeRef` order. -/
def sortRefs (refs : List NodeRef) : List NodeRef := refs.mergeSort fun a b => a.val ≤ b.val

/-- The nodes whose hash is new or has changed, as an ordered set. -/
def DirtySet.compute (hasher : Hasher Digest) (previous : NodeHashes Digest)
    (graph : SemanticGraph) :
    List NodeRef :=
  sortRefs ((graph.nodes.filter fun node => previous node.id ≠ some (hasher.node node)).map
    (·.id)).dedup

/-- The sources of the edges into a node, sorted (`GraphIndex::callers`). -/
def callers (graph : SemanticGraph) (ref : NodeRef) : List NodeRef :=
  sortRefs ((graph.edges.filter (·.target = ref)).map (·.source))

/-- Mark the transitive callers of dirty nodes dirty. The list is the
invalidation order: the initial set, then callers as they are found. -/
def DirtySet.propagate (graph : SemanticGraph) (dirty : List NodeRef) : List NodeRef :=
  saturate (callers graph) (dirty.length + graph.edges.length) dirty dirty

/-- The loop over the nodes: the lowered nodes, and the seal of the last
dirty node, or of the first clean one if none is dirty. -/
def compileNodes (hasher : Hasher Digest) (graph : SemanticGraph) (report : VerificationReport)
    (dirty : List NodeRef) :
    List GraphNode → ArtifactCache Digest → List CoreNode → Option (StageHashes Digest) →
      Except CompileError (List CoreNode × Option (StageHashes Digest)) × ArtifactCache Digest
  | [], cache, nodes, total => (.ok (nodes, total), cache)
  | node :: rest, cache, nodes, total =>
    let coreNode := coreNodeOf node none
    if node.id ∈ dirty then
      let stageHashes := hasher.seal graph report [coreNode]
      compileNodes hasher graph report dirty rest
        (Function.update cache (hasher.node node) (some ⟨stageHashes, 1⟩))
        (nodes ++ [coreNode]) (some stageHashes)
    else
      match cache (hasher.node node) with
      | none => (.error (.missingNode node.id), cache)
      | some entry =>
        compileNodes hasher graph report dirty rest cache (nodes ++ [coreNode])
          (total.or (some entry.stageHashes))

/-- `compile_incremental`, with the cache it leaves behind. -/
def compileIncremental (hasher : Hasher Digest) (graph : SemanticGraph)
    (report : VerificationReport)
    (cache : ArtifactCache Digest) (previous : NodeHashes Digest) :
    Except CompileError (CoreIr Digest) × ArtifactCache Digest :=
  match checkInputs graph report with
  | .error err => (.error err, cache)
  | .ok () =>
    let dirty := DirtySet.propagate graph (DirtySet.compute hasher previous graph)
    match compileNodes hasher graph report dirty graph.nodes cache [] none with
    | (.error err, cache) => (.error err, cache)
    | (.ok (nodes, total), cache) =>
      (.ok ⟨nodes, total.getD (hasher.seal graph report nodes)⟩, cache)

/-! ## What is dirty -/

@[simp] theorem mem_sortRefs {refs : List NodeRef} : ref ∈ sortRefs refs ↔ ref ∈ refs :=
  mem_mergeSort

variable {graph : SemanticGraph} {hasher : Hasher Digest} {previous : NodeHashes Digest}

open DirtySet

/-- A node whose hash changed is dirty. -/
theorem mem_compute {node : GraphNode} (hnode : node ∈ graph.nodes)
    (hchanged : previous node.id ≠ some (hasher.node node)) :
    node.id ∈ compute hasher previous graph := by
  simp only [compute, mem_sortRefs, mem_dedup]
  exact mem_map_of_mem (mem_filter.2 ⟨hnode, by simpa using hchanged⟩)

/-- The callers of a node are the sources of its edges. -/
theorem mem_callers {caller : NodeRef} :
    caller ∈ callers graph ref ↔ ∃ edge ∈ graph.edges, edge.target = ref ∧
      edge.source = caller := by
  simp [callers, and_assoc]

/-- The sources of all edges are as many as the edges at most. -/
theorem card_sources_le (graph : SemanticGraph) (dirty : List NodeRef) :
    ((graph.edges.map (·.source)).toFinset \ dirty.toFinset).card ≤ graph.edges.length :=
  calc ((graph.edges.map (·.source)).toFinset \ dirty.toFinset).card
      ≤ (graph.edges.map (·.source)).toFinset.card := Finset.card_le_card Finset.sdiff_subset
    _ ≤ (graph.edges.map (·.source)).length := toFinset_card_le _
    _ = graph.edges.length := length_map _

theorem mem_sources_of_callers (graph : SemanticGraph) (ref : NodeRef) :
    ∀ caller ∈ callers graph ref, caller ∈ (graph.edges.map (·.source)).toFinset := by
  intro caller hcaller
  obtain ⟨edge, hedge, -, rfl⟩ := mem_callers.1 hcaller
  exact mem_toFinset.2 (mem_map_of_mem hedge)

/-- Propagation ends with a set closed under callers: its fuel covers the
initial set and the sources of all edges. -/
theorem propagate_closed (graph : SemanticGraph) (dirty : List NodeRef) :
    (∀ ref ∈ dirty, ref ∈ propagate graph dirty) ∧
      ∀ edge ∈ graph.edges, edge.target ∈ propagate graph dirty →
        edge.source ∈ propagate graph dirty := by
  refine ⟨subset_saturate _ _ _, fun edge hedge htarget => ?_⟩
  have hfuel := card_sources_le graph dirty
  exact saturate_closed (mem_sources_of_callers graph) _ dirty dirty (by omega)
    (fun _ h => .inl h) _
    htarget _ (mem_callers.2 ⟨edge, hedge, rfl, rfl⟩)

/-! ## The cache -/

/-- Every node of the graph has an entry under its hash. -/
def Warm (hasher : Hasher Digest) (cache : ArtifactCache Digest) (graph : SemanticGraph) : Prop :=
  ∀ node ∈ graph.nodes, (cache (hasher.node node)).isSome

variable {cache : ArtifactCache Digest} {total : Option (StageHashes Digest)}

theorem isSome_update {key : Digest} {entry : ArtifactEntry Digest} (h : (cache digest).isSome) :
    (Function.update cache key (some entry) digest).isSome := by
  unfold Function.update
  split
  · rename_i heq
    subst heq
    rfl
  · exact h

section Loop

variable {report : VerificationReport} {dirty : List NodeRef}

variable (rest : List GraphNode)

/-- The loop removes nothing from the cache. -/
theorem isSome_compileNodes (h : (cache digest).isSome) :
    ((compileNodes hasher graph report dirty rest cache nodes total).2 digest).isSome := by
  induction rest generalizing cache nodes total with
  | nil => exact h
  | cons node rest ih =>
    rw [compileNodes]
    split
    · exact ih (isSome_update h)
    · split
      · exact h
      · exact ih h

/-- When the loop succeeds the cache holds every node it went through. -/
theorem warm_of_compileNodes {result : List CoreNode × Option (StageHashes Digest)}
    (hok : (compileNodes hasher graph report dirty rest cache nodes total).1 = .ok result) :
    ∀ node ∈ rest,
      ((compileNodes hasher graph report dirty rest cache nodes total).2
        (hasher.node node)).isSome := by
  induction rest generalizing cache nodes total with
  | nil => exact by simp
  | cons first rest ih =>
    rw [compileNodes] at hok ⊢
    rw [forall_mem_cons]
    by_cases hdirty : first.id ∈ dirty
    · rw [if_pos hdirty] at hok ⊢
      exact ⟨isSome_compileNodes rest (by simp), ih hok⟩
    · rw [if_neg hdirty] at hok ⊢
      cases hentry : cache (hasher.node first) with
      | none =>
        rw [hentry] at hok
        cases hok
      | some entry =>
        rw [hentry] at hok
        exact ⟨isSome_compileNodes rest (by simp [hentry]), ih hok⟩

/-- The loop succeeds when the clean nodes are cached, and its nodes are
those of the graph without their bodies. -/
theorem compileNodes_of_cached
    (hcached : ∀ node ∈ rest, node.id ∉ dirty → (cache (hasher.node node)).isSome)
    (nodes : List CoreNode) (total : Option (StageHashes Digest)) :
    ∃ seals, (compileNodes hasher graph report dirty rest cache nodes total).1 =
      .ok (nodes ++ rest.map (coreNodeOf · none), seals) := by
  induction rest generalizing cache nodes total with
  | nil => exact ⟨total, by simp [compileNodes]⟩
  | cons node rest ih =>
    rw [forall_mem_cons] at hcached
    have hnodes : nodes ++ (node :: rest).map (coreNodeOf · none) =
        (nodes ++ [coreNodeOf node none]) ++ rest.map (coreNodeOf · none) := by simp
    rw [compileNodes, hnodes]
    split
    · exact ih (fun n hn hclean => isSome_update (hcached.2 n hn hclean)) _ _
    · rename_i hclean
      obtain ⟨entry, hentry⟩ := Option.isSome_iff_exists.1 (hcached.1 hclean)
      simp only [hentry]
      exact ih hcached.2 _ _

end Loop

variable {report : VerificationReport}

/-- A successful compilation leaves the cache warm for its graph. -/
theorem warm_of_compileIncremental {cache' : ArtifactCache Digest} {ir : CoreIr Digest}
    (h : compileIncremental hasher graph report cache previous = (.ok ir, cache')) :
    Warm hasher cache' graph := by
  unfold compileIncremental at h
  split at h
  · cases h
  · dsimp only at h
    split at h
    · cases h
    · rename_i nodes total cache'' hloop
      cases h
      intro node hnode
      have hwarm := warm_of_compileNodes graph.nodes (congrArg Prod.fst hloop) node hnode
      rwa [hloop] at hwarm

omit [DecidableEq Digest] in
/-- A recorded hash is the hash of a node of that version. -/
theorem exists_of_computeNodeHashes (h : computeNodeHashes hasher graph ref = some digest) :
    ∃ node ∈ graph.nodes, hasher.node node = digest := by
  -- the fold from any table: recorded before, or by one of the nodes
  have hfold : ∀ (nodes : List GraphNode) (hashes : NodeHashes Digest),
      nodes.foldl (fun (hashes : NodeHashes Digest) node =>
        Function.update hashes node.id (some (hasher.node node))) hashes ref = some digest →
      hashes ref = some digest ∨ ∃ node ∈ nodes, hasher.node node = digest := by
    intro nodes
    induction nodes with
    | nil => exact fun _ h => .inl h
    | cons node nodes ih =>
      intro hashes h
      rcases ih _ h with hupdate | ⟨later, hlater, heq⟩
      · dsimp only at hupdate
        by_cases hid : ref = node.id
        · subst hid
          rw [Function.update_self] at hupdate
          exact .inr ⟨node, .head _, Option.some.inj hupdate⟩
        · rw [Function.update_of_ne hid] at hupdate
          exact .inl hupdate
      · exact .inr ⟨later, .tail _ hlater, heq⟩
  exact (hfold graph.nodes _ h).resolve_left nofun

/-! ## Agreement of the two paths -/

/-- A node without an expression body: its body text names an external
implementation, or it has neither a body text nor a literal check. -/
def Bodiless : Prop :=
  match node.bodyExpr with
  | some body => isExternalBody body = true
  | none => literalExprFromRuntimeChecks node.runtimeChecks = none

theorem exprFromGraphNode_eq_none_iff : exprFromGraphNode std node = .ok none ↔ Bodiless node := by
  unfold exprFromGraphNode Bodiless
  cases node.bodyExpr with
  | none => simp
  | some body =>
    cases hexternal : isExternalBody body with
    | true => simp [hexternal]
    | false =>
      simp only [hexternal, Bool.false_eq_true, if_false, iff_false]
      split <;> nofun

theorem checkInputs_eq_ok (hvalid : graph.Valid) (haccepted : isReportAccepted report = true) :
    checkInputs graph report = .ok () := by
  simp [checkInputs, haccepted, (SemanticGraph.validate_eq_ok_iff graph).2 hvalid]

/-- With a cache warm for the version the hashes are of, the incremental
path returns the nodes of the graph without their bodies. -/
theorem compileIncremental_nodes {before : SemanticGraph} (hwarm : Warm hasher cache before)
    (hvalid : graph.Valid) (haccepted : isReportAccepted report = true) :
    (compileIncremental hasher graph report cache (computeNodeHashes hasher before)).1.map
      (·.nodes) =
      .ok (graph.nodes.map (coreNodeOf · none)) := by
  unfold compileIncremental
  simp only [checkInputs_eq_ok hvalid haccepted]
  generalize hdirty : propagate graph (compute hasher _ graph) = dirty
  -- a clean node has the hash of a node of the earlier version
  have hcached : ∀ node ∈ graph.nodes, node.id ∉ dirty → (cache (hasher.node node)).isSome := by
    intro node hnode hclean
    have hsame : computeNodeHashes hasher before node.id = some (hasher.node node) := by
      by_contra hchanged
      exact hclean (hdirty ▸ (propagate_closed graph _).1 _ (mem_compute hnode hchanged))
    obtain ⟨old, hold, heq⟩ := exists_of_computeNodeHashes hsame
    exact heq ▸ hwarm old hold
  obtain ⟨seals, hloop⟩ :
      ∃ seals, (compileNodes hasher graph report dirty graph.nodes cache [] none).1 =
        .ok ([] ++ graph.nodes.map (coreNodeOf · none), seals) :=
    compileNodes_of_cached graph.nodes hcached [] none
  split
  · rename_i err _ herror
    rw [herror] at hloop
    cases hloop
  · rename_i nodes total _ hok
    rw [hok] at hloop
    obtain ⟨hnodes, -⟩ := Prod.mk.inj (Except.ok.inj hloop)
    simp [Except.map, hnodes]

theorem lowerNode_eq_iff :
    lowerNode std node = .ok (coreNodeOf node none) ↔ (node.kind = .function → Bodiless node) := by
  unfold lowerNode
  by_cases hkind : node.kind = .function
  · rw [← exprFromGraphNode_eq_none_iff std]
    cases exprFromGraphNode std node with
    | error err => simp [bind, Except.bind, hkind]
    | ok expr => simp [bind, Except.bind, hkind, coreNodeOf]
  · rw [if_neg hkind]
    exact ⟨fun _ hfunction => absurd hfunction hkind, fun _ => rfl⟩

omit [DecidableEq Digest] in
/-- The full path returns the nodes without bodies exactly when every
function has none. -/
theorem lowerToCoreIr_nodes_iff (hasher : Hasher Digest) (std : RustStd) (hvalid : graph.Valid)
    (haccepted : isReportAccepted report = true) :
    (lowerToCoreIr hasher std graph report).map (·.nodes) =
      .ok (graph.nodes.map (coreNodeOf · none)) ↔
      ∀ node ∈ graph.nodes, node.kind = .function → Bodiless node := by
  have hmap : (lowerToCoreIr hasher std graph report).map (·.nodes) =
      graph.nodes.mapM (lowerNode std) := by
    unfold lowerToCoreIr
    rw [checkInputs_eq_ok hvalid haccepted]
    cases graph.nodes.mapM (lowerNode std) <;> simp [bind, Except.bind, Except.map]
  rw [hmap, mapM_eq_ok_map_iff]
  exact forall₂_congr fun node _ => lowerNode_eq_iff std node

/-- After any successful compilation of an earlier version, the incremental
path gives a valid graph the nodes of the full path exactly when no
function of the graph has an expression body. -/
theorem compileIncremental_refines_iff (hasher : Hasher Digest) (std : RustStd)
    (before graph : SemanticGraph) (beforeReport report : VerificationReport)
    (cache warmed : ArtifactCache Digest) (previous : NodeHashes Digest) (ir : CoreIr Digest)
    (hbefore : compileIncremental hasher before beforeReport cache previous = (.ok ir, warmed))
    (hvalid : graph.Valid) (haccepted : isReportAccepted report = true) :
    (compileIncremental hasher graph report warmed (computeNodeHashes hasher before)).1.map
      (·.nodes) =
        (lowerToCoreIr hasher std graph report).map (·.nodes) ↔
      ∀ node ∈ graph.nodes, node.kind = .function → Bodiless node := by
  rw [compileIncremental_nodes (warm_of_compileIncremental hbefore) hvalid haccepted,
    ← lowerToCoreIr_nodes_iff hasher std hvalid haccepted]
  exact eq_comm

/-- The hash of a node is its name; the others do not matter here. -/
def Hasher.byName : Hasher String := ⟨(·.name), fun _ => "", fun _ => "", fun _ _ => ""⟩

/-- One function with the body text `x`, and one implemented elsewhere. -/
def functionWithBody : SemanticGraph :=
  ⟨[{ id := ⟨0⟩, kind := .function, name := "f", bodyExpr := some "x" }], []⟩

def functionElsewhere : SemanticGraph :=
  ⟨[{ id := ⟨0⟩, kind := .function, name := "f", bodyExpr := some "@host" }], []⟩

/-- The function implemented elsewhere, and another one. -/
def twoElsewhere : SemanticGraph :=
  ⟨functionElsewhere.nodes ++
    [{ id := ⟨1⟩, kind := .function, name := "g", bodyExpr := some "@host" }], []⟩

/-- A function that stays and one that is added are lowered alike by both
paths. -/
theorem compileIncremental_refines_elsewhere :
    ∃ ir warmed, compileIncremental Hasher.byName functionElsewhere ⟨[]⟩ (fun _ => none)
        (fun _ => none) = (.ok ir, warmed) ∧
      (compileIncremental Hasher.byName twoElsewhere ⟨[]⟩ warmed
        (computeNodeHashes Hasher.byName functionElsewhere)).1.map (·.nodes) =
      (lowerToCoreIr Hasher.byName .trivial twoElsewhere ⟨[]⟩).map (·.nodes) := by
  have hcold : Warm Hasher.byName (fun _ => none) .empty := fun _ h => nomatch h
  have hnodes := compileIncremental_nodes hcold (show functionElsewhere.Valid by decide)
    (show isReportAccepted ⟨[]⟩ = true from rfl)
  obtain ⟨ir, hir⟩ := exists_map_eq_ok_iff.1 ⟨_, hnodes⟩
  refine ⟨ir, _, Prod.ext hir rfl, ?_⟩
  refine (compileIncremental_refines_iff _ _ _ _ ⟨[]⟩ ⟨[]⟩ _ _ (fun _ => none) _
    (Prod.ext hir rfl) (by decide) rfl).2 ?_
  have hexternal : isExternalBody "@host" = true := by decide
  intro node hnode _
  rcases mem_pair.1 hnode with rfl | rfl
  · exact hexternal
  · exact hexternal

/-- The body `x` is lost on the incremental path. -/
theorem compileIncremental_drops_body :
    ∃ ir warmed, compileIncremental Hasher.byName .empty ⟨[]⟩ (fun _ => none) (fun _ => none) =
        (.ok ir, warmed) ∧
      functionWithBody.Valid ∧ isReportAccepted ⟨[]⟩ = true ∧
      (compileIncremental Hasher.byName functionWithBody ⟨[]⟩ warmed
        (computeNodeHashes Hasher.byName .empty)).1.map (·.nodes) ≠
      (lowerToCoreIr Hasher.byName .trivial functionWithBody ⟨[]⟩).map (·.nodes) := by
  have hwarm : Warm Hasher.byName (fun _ => none) .empty := fun _ h => nomatch h
  refine ⟨_, _, rfl, by decide, rfl, fun heq => ?_⟩
  rw [compileIncremental_nodes hwarm (by decide) rfl] at heq
  have hbodiless : isExternalBody "x" = true :=
    (lowerToCoreIr_nodes_iff Hasher.byName .trivial (by decide) rfl).1 heq.symm _
      (mem_singleton_self _) rfl
  exact absurd hbodiless (by decide)

/-! ## Sessions -/

/-- One version, compiled with the cache and the hashes of the one before. -/
def compileVersion (hasher : Hasher Digest) (left : ArtifactCache Digest × NodeHashes Digest)
    (version : SemanticGraph × VerificationReport) :
    (ArtifactCache Digest × NodeHashes Digest) × Except CompileError (CoreIr Digest) :=
  let result := compileIncremental hasher version.1 version.2 left.1 left.2
  ((result.2, computeNodeHashes hasher version.1), result.1)

/-- From a cold start, every version that is valid and accepted is compiled
to its nodes, whichever were compiled before: no entry is missing. -/
theorem session_nodes (hasher : Hasher Digest)
    (versions : List (SemanticGraph × VerificationReport))
    (haccepted : ∀ v ∈ versions, v.1.Valid ∧ isReportAccepted v.2 = true) :
    ∀ entry ∈ (run (compileVersion hasher) (fun _ => none, fun _ => none) versions).2,
      entry.2.map (·.nodes) = .ok (entry.1.1.nodes.map (coreNodeOf · none)) := by
  refine (@run_induction_guarded _ _ _ (compileVersion hasher) (fun _ _ v => v ∈ versions) _
    (fun left log =>
      -- the hashes are those of a version that the cache is warm for
      (∃ before, Warm hasher left.1 before ∧ left.2 = computeNodeHashes hasher before) ∧
        ∀ entry ∈ log, entry.2.map (·.nodes) = .ok (entry.1.1.nodes.map (coreNodeOf · none)))
    ⟨⟨.empty, (fun _ h => nomatch h), rfl⟩, fun _ h => nomatch h⟩ ?_ versions
    fun _ _ _ heq => by simp [heq]).2
  rintro ⟨cache, previous⟩ log ⟨graph, report⟩ ⟨⟨before, hwarm, rfl⟩, hlog⟩ hversion
  obtain ⟨hvalid, hreport⟩ := haccepted _ hversion
  have hnodes := compileIncremental_nodes hwarm hvalid hreport
  refine ⟨⟨graph, ?_, rfl⟩, forall_mem_append.2 ⟨hlog, forall_mem_singleton.2 hnodes⟩⟩
  cases hresult : (compileIncremental hasher graph report cache
      (computeNodeHashes hasher before)).1 with
  | error => simp [hresult, Except.map] at hnodes
  | ok ir => exact warm_of_compileIncremental (Prod.ext hresult rfl)

/-- A function is added and taken away again, and another one stays. -/
theorem session_nodes_removed :
    let first := compileVersion Hasher.byName (fun _ => none, fun _ => none) (twoElsewhere, ⟨[]⟩)
    (compileVersion Hasher.byName first.1 (functionElsewhere, ⟨[]⟩)).2.map (·.nodes) =
      .ok (functionElsewhere.nodes.map (coreNodeOf · none)) :=
  session_nodes _ [(twoElsewhere, ⟨[]⟩), (functionElsewhere, ⟨[]⟩)]
    (by decide) _ (.tail _ (.head _))

end Ail.Compiler
