import Ail.Cli.Merge
import Ail.Core.Validation
import Ail.Lib.FiniteMap

/-!
# The laws of the additive merge

Of graphs without repeated names the node pass has a closed form
(`foldl_mergeNode`): the target's nodes, then the source's new
ones renumbered from the next free ref. From it the merged graph is
valid, keeps the target, has the names of both and draws every edge of
the source.

Two laws depend on refs. The pass compares whole nodes, so a name is
reported where the two nodes differ in nothing but their ref, and a
renumbered node is reported when its source is merged again.
`mergeLaws_iff` says that nothing else breaks a law.
-/

namespace Ail.Cli

open Ail.Core List SemanticGraph

/-- The names of the nodes, in node order. -/
def nodeNames (nodes : List GraphNode) : List String := nodes.map (·.name)

/-- The largest ref of the graph, 0 if it has no node. -/
def maxRef (graph : SemanticGraph) : UInt32 := (graph.nodes.map (·.id.val)).foldl max 0

/-- The source's nodes whose name the target lacks. -/
def newNodes (known nodes : List GraphNode) : List GraphNode :=
  nodes.filter (·.name ∉ nodeNames known)

/-- The nodes under the refs from `next` on. -/
def renumber (next : UInt32) : List GraphNode → List GraphNode
  | [] => []
  | node :: nodes => { node with id := ⟨next⟩ } :: renumber (saturatingSucc next) nodes

/-- The graph of a merge, and the names it reports. -/
def merged (target source : SemanticGraph) : SemanticGraph := (mergeGraphsAdditive target source).1

def reported (target source : SemanticGraph) : List String := (mergeGraphsAdditive target source).2

/-- The refs of the nodes by name and their names by ref, as the passes
look them up. -/
def nameRefs (nodes : List GraphNode) : List (String × NodeRef) :=
  (nodes.map fun node => (node.name, node.id)).reverse

def refNames (nodes : List GraphNode) : List (NodeRef × String) :=
  (nodes.map fun node => (node.id, node.name)).reverse

/-- What a merge promises. -/
structure MergeLaws (target source : SemanticGraph) : Prop where
  valid : (merged target source).validate = .ok ()
  nodes_kept : target.nodes <+: (merged target source).nodes
  edges_kept : target.edges <+: (merged target source).edges
  names : ∀ name, name ∈ nodeNames (merged target source).nodes ↔
    name ∈ nodeNames target.nodes ∨ name ∈ nodeNames source.nodes
  edges : ∀ edge ∈ source.edges, ∃ first ∈ source.nodes, ∃ second ∈ source.nodes,
    ∃ first' ∈ (merged target source).nodes, ∃ second' ∈ (merged target source).nodes,
      first.id = edge.source ∧ second.id = edge.target ∧
      first'.name = first.name ∧ second'.name = second.name ∧
      { edge with source := first'.id, target := second'.id } ∈ (merged target source).edges
  conflicts : ∀ name, name ∈ reported target source ↔
    ∃ known ∈ target.nodes, ∃ node ∈ source.nodes,
      known.name = name ∧ node.name = name ∧ known ≠ { node with id := known.id }
  again : merged (merged target source) source = merged target source
  again_conflicts : ∀ name ∈ reported (merged target source) source, name ∈ reported target source

/-- No two nodes differ in their ref only, and the new nodes have the
refs that come next. -/
structure RefsInLine (target source : SemanticGraph) : Prop where
  shared : ∀ known ∈ target.nodes, ∀ node ∈ source.nodes,
    known = { node with id := known.id } → known.id = node.id
  new : renumber (saturatingSucc (maxRef target)) (newNodes target.nodes source.nodes) =
    newNodes target.nodes source.nodes

/-! ## The renumbered nodes -/

@[simp] theorem nodeNames_renumber (next : UInt32) (nodes : List GraphNode) :
    nodeNames (renumber next nodes) = nodeNames nodes := by
  induction nodes generalizing next with
  | nil => rfl
  | cons node nodes ih => exact congrArg (node.name :: ·) (ih _)

theorem toNat_saturatingSucc {ref : UInt32} (hroom : ref.toNat + 1 < 2 ^ 32) :
    (saturatingSucc ref).toNat = ref.toNat + 1 := by
  have hne : ref ≠ 0xFFFFFFFF := by
    rintro rfl
    simp at hroom
  rw [saturatingSucc, if_neg hne]
  exact Nat.mod_eq_of_lt hroom

variable {nodes : List GraphNode} {next : UInt32} {node : GraphNode}

/-- Without saturation the refs count up. -/
theorem refs_renumber (hroom : next.toNat + nodes.length < 2 ^ 32) :
    (renumber next nodes).map (·.id.val.toNat) = List.range' next.toNat nodes.length := by
  induction nodes generalizing next with
  | nil => rfl
  | cons node nodes ih =>
    rw [length_cons] at hroom
    have hsucc := @toNat_saturatingSucc next (by omega)
    rw [renumber, map_cons, ih (by omega), hsucc]
    rfl

/-! ## The node pass -/

theorem find?_name_none {name : String} :
    nodes.find? (·.name = name) = none ↔ name ∉ nodeNames nodes := by
  simp [nodeNames]

/-- A node differs from the known one of its name. -/
def Changed (known : List GraphNode) (node : GraphNode) : Prop :=
  ∃ other, known.find? (·.name = node.name) = some other ∧ other ≠ node

/-- What the pass makes of the nodes and the conflicts. -/
theorem foldl_mergeNode (hnames : (nodeNames nodes).Nodup) (merge : NodeMerge) :
    (nodes.foldl mergeNode merge).nodes =
      merge.nodes ++ renumber merge.nextRef (newNodes merge.nodes nodes) ∧
    ∀ name, name ∈ (nodes.foldl mergeNode merge).conflicts ↔
      name ∈ merge.conflicts ∨ ∃ node ∈ nodes, node.name = name ∧ Changed merge.nodes node := by
  induction nodes generalizing merge with
  | nil => simp [newNodes, renumber]
  | cons node nodes ih =>
    obtain ⟨hnew, hnames⟩ := nodup_cons.1 hnames
    obtain ⟨hnodes, hconflicts⟩ := ih hnames (mergeNode merge node)
    rw [foldl_cons, hnodes]
    simp only [hconflicts, exists_mem_cons_iff]
    cases hfind : merge.nodes.find? (·.name = node.name) with
    | some known =>
      have hstep : (mergeNode merge node).nodes = merge.nodes ∧
          (mergeNode merge node).nextRef = merge.nextRef ∧
          ∀ name, name ∈ (mergeNode merge node).conflicts ↔
            name ∈ merge.conflicts ∨ node.name = name ∧ Changed merge.nodes node := by
        simp only [mergeNode, hfind, Changed, Option.some.injEq]
        split <;> simp_all [eq_comm]
      have hmem : node.name ∈ nodeNames merge.nodes := by
        by_contra hnot
        cases (find?_name_none.2 hnot).symm.trans hfind
      have hold : newNodes merge.nodes (node :: nodes) = newNodes merge.nodes nodes :=
        filter_cons_of_neg (by simpa using hmem)
      rw [hstep.1, hstep.2.1, hold]
      exact ⟨rfl, fun name => by rw [hstep.2.2, or_assoc]⟩
    | none =>
      have hne : ∀ other ∈ nodes, other.name ≠ node.name := fun other hother heq =>
        hnew (mem_map.2 ⟨other, hother, heq⟩)
      have hrest : newNodes (merge.nodes ++ [{ node with id := ⟨merge.nextRef⟩ }]) nodes =
          newNodes merge.nodes nodes :=
        filter_congr fun other hother => by simp [nodeNames, hne other hother]
      have hcons : newNodes merge.nodes (node :: nodes) = node :: newNodes merge.nodes nodes :=
        filter_cons_of_pos (by simpa using find?_name_none.1 hfind)
      have hchanged : ∀ other ∈ nodes,
          (Changed (merge.nodes ++ [{ node with id := ⟨merge.nextRef⟩ }]) other ↔
            Changed merge.nodes other) := fun other hother => by
        simp [Changed, (hne other hother).symm]
      have hnot : ¬ Changed merge.nodes node := fun ⟨other, hother, _⟩ =>
        nomatch hfind.symm.trans hother
      simp only [mergeNode, hfind, hrest, hcons, append_assoc, hnot, and_false, false_or]
      refine ⟨rfl, fun name => or_congr_right (exists_congr fun other => ?_)⟩
      exact and_congr_right fun hother => by rw [hchanged other hother]

/-- The map from names to refs is that of the nodes merged so far. -/
theorem foldl_mergeNode_refMap (nodes : List GraphNode) {merge : NodeMerge}
    (hrefs : merge.refMap = nameRefs merge.nodes) :
    (nodes.foldl mergeNode merge).refMap = nameRefs (nodes.foldl mergeNode merge).nodes := by
  induction nodes generalizing merge with
  | nil => exact hrefs
  | cons node nodes ih =>
    refine ih ?_
    unfold mergeNode
    split
    · split <;> exact hrefs
    · simp [hrefs, nameRefs]

/-! ## The edge pass -/

theorem mergeEdge_keeps (edges : List GraphEdge) (edge : GraphEdge) :
    edges <+: mergeEdge edges edge := by
  unfold mergeEdge
  split
  · exact prefix_rfl
  · exact prefix_append _ _

theorem foldl_mergeEdge_keeps (mapped edges : List GraphEdge) :
    edges <+: mapped.foldl mergeEdge edges := by
  induction mapped generalizing edges with
  | nil => exact prefix_rfl
  | cons edge mapped ih => exact (mergeEdge_keeps edges edge).trans (ih _)

theorem mem_foldl_mergeEdge (mapped edges : List GraphEdge) (edge : GraphEdge) :
    edge ∈ mapped.foldl mergeEdge edges ↔ edge ∈ edges ∨ edge ∈ mapped := by
  induction mapped generalizing edges with
  | nil => simp
  | cons other mapped ih =>
    have hstep : edge ∈ mergeEdge edges other ↔ edge ∈ edges ∨ edge = other := by
      by_cases hthere : other ∈ edges
      · rw [mergeEdge, if_pos hthere]
        exact ⟨.inl, fun hedge => hedge.elim id fun heq => heq ▸ hthere⟩
      · rw [mergeEdge, if_neg hthere, mem_append, mem_singleton]
    rw [foldl_cons, ih, hstep, mem_cons, or_assoc]

theorem foldl_mergeEdge_of_subset {mapped edges : List GraphEdge}
    (hthere : ∀ edge ∈ mapped, edge ∈ edges) : mapped.foldl mergeEdge edges = edges := by
  induction mapped with
  | nil => rfl
  | cons edge mapped ih =>
    obtain ⟨hedge, hmapped⟩ := forall_mem_cons.1 hthere
    rw [foldl_cons, mergeEdge, if_pos hedge, ih hmapped]

/-- Where a key occurs once, looking it up finds its value. -/
theorem lookup_reverse_map {α β γ : Type} [DecidableEq β] (key : α → β) (value : α → γ)
    {items : List α} (hkeys : (items.map key).Nodup) {item : α} (hitem : item ∈ items) :
    (items.map fun item => (key item, value item)).reverse.lookup (key item) =
      some (value item) := by
  obtain ⟨before, after, rfl⟩ := append_of_mem hitem
  rw [map_append, nodup_append, map_cons, nodup_cons] at hkeys
  refine lookup_eq_some_iff.2 ⟨(after.map fun item => (key item, value item)).reverse,
    (before.map fun item => (key item, value item)).reverse, by simp, fun pair hpair => ?_⟩
  obtain ⟨other, hother, rfl⟩ := mem_map.1 (mem_reverse.1 hpair)
  have hne : key item ≠ key other := fun heq => hkeys.2.1.1 (heq ▸ mem_map_of_mem hother)
  simpa using hne

theorem lookup_nameRefs (hnames : (nodeNames nodes).Nodup) (hnode : node ∈ nodes) :
    (nameRefs nodes).lookup node.name = some node.id :=
  lookup_reverse_map _ _ hnames hnode

theorem lookup_refNames (hrefs : (nodes.map (·.id)).Nodup) (hnode : node ∈ nodes) :
    (refNames nodes).lookup node.id = some node.name :=
  lookup_reverse_map _ _ hrefs hnode

/-! ## The merged graph -/

/-- What a merge is asked of: valid graphs without repeated names, and
room for the new refs. -/
structure Mergeable (target source : SemanticGraph) : Prop where
  target_valid : target.validate = .ok ()
  source_valid : source.validate = .ok ()
  target_names : (nodeNames target.nodes).Nodup
  source_names : (nodeNames source.nodes).Nodup
  room : (maxRef target).toNat + 1 + (newNodes target.nodes source.nodes).length < 2 ^ 32

section Passes

variable {target source : SemanticGraph}

theorem merged_nodes (hnames : (nodeNames source.nodes).Nodup) : (merged target source).nodes =
    target.nodes ++ renumber (saturatingSucc (maxRef target))
      (newNodes target.nodes source.nodes) :=
  (foldl_mergeNode hnames _).1

theorem merged_edges (target source : SemanticGraph) : (merged target source).edges =
    (source.edges.filterMap (mappedEdge (refNames source.nodes)
      (nameRefs (merged target source).nodes))).foldl mergeEdge target.edges := by
  have hrefMap := @foldl_mergeNode_refMap source.nodes
    ⟨target.nodes, saturatingSucc (maxRef target), nameRefs target.nodes, []⟩ rfl
  exact congrArg (fun refMap =>
    (source.edges.filterMap (mappedEdge (refNames source.nodes) refMap)).foldl mergeEdge
      target.edges)
    hrefMap

/-- A conflict is a pair of different nodes of one name. -/
theorem mem_reported (htarget : (nodeNames target.nodes).Nodup)
    (hsource : (nodeNames source.nodes).Nodup) (name : String) :
    name ∈ reported target source ↔ ∃ known ∈ target.nodes, ∃ node ∈ source.nodes,
      known.name = name ∧ node.name = name ∧ known ≠ node := by
  refine ((foldl_mergeNode hsource _).2 name).trans ⟨?_, ?_⟩
  · rintro (hnone | ⟨node, hnode, rfl, known, hknown, hdiff⟩)
    · cases hnone
    · obtain ⟨hmem, hsame⟩ := (Lib.find?_key_eq_some htarget).1 hknown
      exact ⟨known, hmem, node, hnode, hsame, rfl, hdiff⟩
  · rintro ⟨known, hknown, node, hnode, hsame, rfl, hdiff⟩
    exact .inr ⟨node, hnode, rfl, known, (Lib.find?_key_eq_some htarget).2 ⟨hknown, hsame⟩, hdiff⟩

end Passes

theorem le_foldl_max {refs : List UInt32} {start ref : UInt32} (hmem : ref ≤ start ∨ ref ∈ refs) :
    ref ≤ refs.foldl max start := by
  induction refs generalizing start with
  | nil => exact hmem.resolve_right not_mem_nil
  | cons other refs ih =>
    have hmax : start ≤ max start other ∧ other ≤ max start other := by
      rw [show max start other = if start ≤ other then other else start from rfl]
      split
      · next hle => exact ⟨hle, UInt32.le_refl _⟩
      · next hnot => exact ⟨UInt32.le_refl _, UInt32.le_of_lt (UInt32.not_le.1 hnot)⟩
    refine ih ?_
    rcases hmem with hle | hmem
    · exact .inl (UInt32.le_trans hle hmax.1)
    · rcases mem_cons.1 hmem with rfl | hmem
      · exact .inl hmax.2
      · exact .inr hmem

namespace Mergeable

variable {target source : SemanticGraph} (h : Mergeable target source)
include h

theorem valid_target : target.Valid := (validate_eq_ok_iff target).1 h.target_valid

theorem mem_names (name : String) : name ∈ nodeNames (merged target source).nodes ↔
    name ∈ nodeNames target.nodes ∨ name ∈ nodeNames source.nodes := by
  rw [merged_nodes h.source_names, nodeNames, map_append, mem_append, ← nodeNames,
    ← nodeNames, nodeNames_renumber]
  simp only [newNodes, nodeNames, mem_map, mem_filter, decide_eq_true_eq]
  constructor
  · rintro (htarget | ⟨node, hnode, rfl⟩)
    · exact .inl htarget
    · exact .inr ⟨node, hnode.1, rfl⟩
  · rintro (htarget | ⟨node, hnode, rfl⟩)
    · exact .inl htarget
    · by_cases hknown : ∃ known ∈ target.nodes, known.name = node.name
      · exact .inl hknown
      · exact .inr ⟨node, ⟨hnode, hknown⟩, rfl⟩

theorem nodup_names : (nodeNames (merged target source).nodes).Nodup := by
  rw [merged_nodes h.source_names, nodeNames, map_append, ← nodeNames, ← nodeNames,
    nodeNames_renumber]
  refine h.target_names.append (h.source_names.sublist (filter_sublist.map _)) ?_
  intro name htarget hnew
  obtain ⟨node, hnode, rfl⟩ := mem_map.1 hnew
  exact (by simpa using (mem_filter.1 hnode).2 : node.name ∉ nodeNames target.nodes) htarget

theorem nodup_refs : ((merged target source).nodes.map (·.id)).Nodup := by
  refine List.Nodup.of_map (fun ref => ref.val.toNat) ?_
  have hroom := h.room
  have hnext : (saturatingSucc (maxRef target)).toNat = (maxRef target).toNat + 1 :=
    toNat_saturatingSucc (by omega)
  have hnew : List.map ((fun ref : NodeRef => ref.val.toNat) ∘ fun node : GraphNode => node.id)
      (renumber (saturatingSucc (maxRef target)) (newNodes target.nodes source.nodes)) =
      List.range' ((maxRef target).toNat + 1) _ := hnext ▸ refs_renumber (by omega)
  rw [map_map, merged_nodes h.source_names, map_append, hnew]
  refine List.Nodup.append ?_ nodup_range' ?_
  · rw [← map_map]
    exact h.valid_target.nodup.map fun ref ref' heq => congrArg NodeRef.mk (UInt32.toNat_inj.1 heq)
  · -- every ref of the target is at most the largest, every new one above it
    intro ref htarget hnew
    obtain ⟨node, hnode, rfl⟩ := mem_map.1 htarget
    have hle : node.id.val ≤ maxRef target := le_foldl_max (.inr (mem_map_of_mem hnode))
    have hlt : (maxRef target).toNat + 1 ≤ node.id.val.toNat := (mem_range'_1.1 hnew).1
    exact absurd (UInt32.le_iff_toNat_le.1 hle) (by omega)

/-- Every edge of the source is drawn between the nodes of its names. -/
theorem drawn {edge : GraphEdge} (hedge : edge ∈ source.edges) :
    ∃ first ∈ source.nodes, ∃ second ∈ source.nodes,
    ∃ first' ∈ (merged target source).nodes, ∃ second' ∈ (merged target source).nodes,
      first.id = edge.source ∧ second.id = edge.target ∧
      first'.name = first.name ∧ second'.name = second.name ∧
      mappedEdge (refNames source.nodes) (nameRefs (merged target source).nodes) edge =
        some { edge with source := first'.id, target := second'.id } := by
  have hvalid := (validate_eq_ok_iff source).1 h.source_valid
  have hmerged : ∀ node ∈ source.nodes,
      ∃ node' ∈ (merged target source).nodes, node'.name = node.name := fun node hnode =>
    mem_map.1 ((h.mem_names node.name).2 (.inr (mem_map_of_mem hnode)))
  obtain ⟨first, hfirst, hsource⟩ := mem_map.1 (hvalid.source_mem edge hedge)
  obtain ⟨second, hsecond, htarget⟩ := mem_map.1 (hvalid.target_mem edge hedge)
  obtain ⟨first', hfirst', hname⟩ := hmerged first hfirst
  obtain ⟨second', hsecond', hname'⟩ := hmerged second hsecond
  refine ⟨first, hfirst, second, hsecond, first', hfirst', second', hsecond', hsource, htarget,
    hname, hname', ?_⟩
  rw [mappedEdge, ← hsource, ← htarget, lookup_refNames hvalid.nodup hfirst,
    lookup_refNames hvalid.nodup hsecond, ← hname, ← hname']
  simp only [Option.bind_eq_bind, Option.bind_some, lookup_nameRefs h.nodup_names hfirst',
    lookup_nameRefs h.nodup_names hsecond']
  rfl

theorem merged_valid : (merged target source).Valid := by
  have hkept : ∀ ref ∈ target.refs, ref ∈ (merged target source).refs := by
    intro ref href
    rw [refs, merged_nodes h.source_names, map_append]
    exact mem_append_left _ href
  have hends : ∀ edge ∈ (merged target source).edges,
      edge.source ∈ (merged target source).refs ∧ edge.target ∈ (merged target source).refs := by
    intro edge hedge
    rw [merged_edges, mem_foldl_mergeEdge] at hedge
    rcases hedge with hold | hdrawn
    · exact ⟨hkept _ (h.valid_target.source_mem edge hold),
        hkept _ (h.valid_target.target_mem edge hold)⟩
    · obtain ⟨edge', hedge', hmapped⟩ := mem_filterMap.1 hdrawn
      obtain ⟨_, -, _, -, first, hfirst, second, hsecond, -, -, -, -, heq⟩ := h.drawn hedge'
      cases heq.symm.trans hmapped
      exact ⟨mem_map_of_mem hfirst, mem_map_of_mem hsecond⟩
  exact ⟨h.nodup_refs, fun edge hedge => (hends edge hedge).1,
    fun edge hedge => (hends edge hedge).2⟩

/-- Merging again finds every name and every edge in place. -/
theorem merged_again : merged (merged target source) source = merged target source := by
  have hnone : newNodes (merged target source).nodes source.nodes = [] := by
    refine filter_eq_nil_iff.2 fun node hnode => ?_
    simpa using (h.mem_names node.name).2 (.inr (mem_map_of_mem hnode))
  have hnodes : (merged (merged target source) source).nodes = (merged target source).nodes := by
    rw [merged_nodes h.source_names, hnone]
    exact append_nil _
  have hedges : (merged (merged target source) source).edges = (merged target source).edges := by
    rw [merged_edges, hnodes]
    refine foldl_mergeEdge_of_subset fun edge hedge => ?_
    rw [merged_edges target]
    exact (mem_foldl_mergeEdge _ _ _).2 (.inr hedge)
  exact congrArg₂ SemanticGraph.mk hnodes hedges

end Mergeable

/-- Nodes keep their refs if those of one name are the same. -/
theorem renumber_eq_self
    (hsame : ∀ node' ∈ renumber next nodes, ∀ node ∈ nodes, node'.name = node.name → node' = node) :
    renumber next nodes = nodes := by
  induction nodes generalizing next with
  | nil => rfl
  | cons node nodes ih =>
    have hhead := hsame _ (.head _) node (.head _) rfl
    have htail := ih fun node' hnode' other hother =>
      hsame node' (.tail _ hnode') other (.tail _ hother)
    rw [renumber, hhead, htail]

/-- A merge keeps all its laws if and only if the refs are in line. -/
theorem mergeLaws_iff {target source : SemanticGraph} (h : Mergeable target source) :
    MergeLaws target source ↔ RefsInLine target source := by
  have hfirst := mem_reported h.target_names h.source_names
  have hagain := mem_reported h.nodup_names h.source_names
  constructor
  · intro laws
    refine ⟨fun known hknown node hnode hsame => ?_,
      renumber_eq_self fun node' hnode' node hnode hname => ?_⟩
    · by_contra hid
      have hname : known.name = node.name := by rw [hsame]
      obtain ⟨known', hknown', node', hnode', hname₁, hname₂, hdiff⟩ :=
        (laws.conflicts known.name).1 ((hfirst _).2
          ⟨known, hknown, node, hnode, rfl, hname.symm, fun heq => hid (heq ▸ rfl)⟩)
      rw [inj_on_of_nodup_map h.target_names hknown' hknown hname₁,
        inj_on_of_nodup_map h.source_names hnode' hnode (hname₂.trans hname)] at hdiff
      exact hdiff hsame
    · -- a renumbered node would be reported by the second merge only
      by_contra hdiff
      obtain ⟨hsource, hlacks⟩ := mem_filter.1 hnode
      have hnew := laws.again_conflicts node.name ((hagain _).2 ⟨node',
        merged_nodes h.source_names ▸ mem_append_right _ hnode', node, hsource, hname, rfl, hdiff⟩)
      obtain ⟨known, hknown, -, -, hsame, -⟩ := (laws.conflicts node.name).1 hnew
      exact (by simpa using hlacks : node.name ∉ nodeNames target.nodes)
        (mem_map.2 ⟨known, hknown, hsame⟩)
  · intro inLine
    refine
      { valid := (validate_eq_ok_iff _).2 h.merged_valid
        nodes_kept := merged_nodes h.source_names ▸ prefix_append _ _
        edges_kept := merged_edges target source ▸ foldl_mergeEdge_keeps _ _
        names := h.mem_names
        edges := fun edge hedge => ?_
        conflicts := fun name => (hfirst name).trans ?_
        again := h.merged_again
        again_conflicts := fun name hname => ?_ }
    · obtain ⟨first, hfirst, second, hsecond, first', hfirst', second', hsecond', hs, ht, hn,
        hn', heq⟩ :=
        h.drawn hedge
      refine ⟨first, hfirst, second, hsecond, first', hfirst', second', hsecond', hs, ht,
        hn, hn', ?_⟩
      rw [merged_edges, mem_foldl_mergeEdge]
      exact .inr (mem_filterMap.2 ⟨edge, hedge, heq⟩)
    · refine exists_congr fun known => and_congr_right fun hknown => exists_congr fun node =>
        and_congr_right fun hnode => and_congr_right fun _ => and_congr_right fun _ => not_congr ?_
      constructor
      · rintro rfl
        rfl
      · intro hsame
        rw [hsame, inLine.shared known hknown node hnode hsame]
    · obtain ⟨known, hknown, node, hnode, hname₁, hname₂, hdiff⟩ := (hagain name).1 hname
      rw [merged_nodes h.source_names, inLine.new, mem_append] at hknown
      rcases hknown with hknown | hknown
      · exact (hfirst name).2 ⟨known, hknown, node, hnode, hname₁, hname₂, hdiff⟩
      · exact absurd (inj_on_of_nodup_map h.source_names (mem_filter.1 hknown).1 hnode
          (hname₁.trans hname₂.symm)) hdiff

/-! ## Refs that do and do not stand in line -/

namespace Sample

def function (ref : UInt32) (name : String) : GraphNode := { id := ⟨ref⟩, kind := .function, name }

/-- A graph of two functions, the second under the ref. -/
def calling (ref : UInt32) : SemanticGraph :=
  ⟨[function 1 "main", function ref "log"], [{ source := ⟨1⟩, target := ⟨ref⟩, kind := .calls }]⟩

end Sample

theorem mergeLaws_iff_calling : MergeLaws ⟨[Sample.function 1 "main"], []⟩ (Sample.calling 2) :=
  (mergeLaws_iff (by constructor <;> decide)).2 (by constructor <;> decide)

/-- One function under two refs is reported as changed in both graphs,
and a function merged under a new ref is reported the second time. -/
theorem merge_reports_refs :
    reported (Sample.calling 2) (Sample.calling 3) = ["log"] ∧
    reported ⟨[], []⟩ (Sample.calling 3) = [] ∧
    reported (merged ⟨[], []⟩ (Sample.calling 3)) (Sample.calling 3) = ["log"] := by
  decide

end Ail.Cli
