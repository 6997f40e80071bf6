import Ail.Coordinator.Submit
import Ail.Lib.FiniteMap

/-!
# Changesets that touch different nodes

The rebase rule lets a changeset through when no ref it names was named
by the one before it. For the payloads that carry refs this is sound:
`applyBoth_comm` says that two such changesets can change places.

Up to the order of its lists a valid graph is a partial map from refs to
nodes and a multiset of edges (`Contents`). There a payload changes the
nodes of its own refs and the edges at them, so payloads with different
refs commute on the nose.
-/

namespace Ail.Coordinator

open Ail.Core Change Lib List

/-! ## Contents -/

@[ext] structure Contents where
  node : NodeRef → Option GraphNode
  edges : Multiset GraphEdge

def contents (graph : SemanticGraph) : Contents :=
  ⟨fun ref => graph.nodes.find? (·.id = ref), graph.edges⟩

variable {payload : OpPayload} {ref : NodeRef} {ops : List CanonicalOp}

/-- The payloads that carry refs. -/
inductive ByRef : OpPayload → Prop
  | createNode (node : GraphNode) : ByRef (.createNode node)
  | removeNode (ref : NodeRef) : ByRef (.removeNode ref)
  | setNodeName (ref : NodeRef) (name : String) : ByRef (.setNodeName ref name)
  | addEdge (edge : GraphEdge) : ByRef (.addEdge edge)

namespace Contents

/-- What a payload makes of the node at a ref. -/
def touchNode : OpPayload → NodeRef → Option GraphNode → Option GraphNode
  | .createNode node, ref, old => if ref = node.id then some node else old
  | .removeNode gone, ref, old => if ref = gone then none else old
  | .setNodeName renamed name, ref, old =>
    if ref = renamed then old.map fun node => { node with name } else old
  | _, _, old => old

/-- The edges that a payload leaves, and those it adds. -/
def keepsEdge : OpPayload → GraphEdge → Bool
  | .removeNode gone, edge => edge.source ≠ gone ∧ edge.target ≠ gone
  | _, _ => true

def addedEdges : OpPayload → Multiset GraphEdge
  | .addEdge edge => {edge}
  | _ => 0

/-- The refs that have to be absent, and those that have to be there. -/
def Admits (c : Contents) : OpPayload → Prop
  | .createNode node => c.node node.id = none
  | .addEdge edge => (c.node edge.source).isSome ∧ (c.node edge.target).isSome
  | _ => True

def act (payload : OpPayload) (c : Contents) : Contents :=
  ⟨fun ref => touchNode payload ref (c.node ref),
    addedEdges payload + c.edges.filter (keepsEdge payload ·)⟩

open Classical in
/-- One payload, if it is admitted. -/
noncomputable def step (c : Contents) (payload : OpPayload) : Option Contents :=
  if c.Admits payload then some (act payload c) else none

theorem touchNode_of_notMem (hother : ref ∉ extractNodeRefs payload) (old : Option GraphNode) :
    touchNode payload ref old = old := by
  cases payload with
  | createNode _ | removeNode _ | setNodeName _ _ =>
    exact if_neg (by simpa [extractNodeRefs] using hother)
  | _ => rfl

section Independent

variable {a b : OpPayload} (hdisjoint : Disjoint (extractNodeRefs a) (extractNodeRefs b))
include hdisjoint

theorem admits_act (c : Contents) : (act b c).Admits a ↔ c.Admits a := by
  have hnode : ∀ ref ∈ extractNodeRefs a, (act b c).node ref = c.node ref := fun ref href =>
    touchNode_of_notMem (Finset.disjoint_left.1 hdisjoint href) _
  cases a with
  | createNode node => rw [Admits, Admits, hnode _ (by simp [extractNodeRefs])]
  | addEdge edge =>
    rw [Admits, Admits, hnode _ (by simp [extractNodeRefs]), hnode _ (by simp [extractNodeRefs])]
  | _ => rfl

/-- An edge that is added is not at a node that is removed. -/
theorem filter_addedEdges : (addedEdges a).filter (keepsEdge b ·) = addedEdges a := by
  refine Multiset.filter_eq_self.2 fun edge hedge => ?_
  cases a with
  | addEdge added =>
    rw [Multiset.mem_singleton.1 hedge]
    cases b with
    | removeNode gone =>
      have hsource := Finset.disjoint_left.1 hdisjoint (Finset.mem_insert_self _ _)
      have htarget := Finset.disjoint_left.1 hdisjoint
        (Finset.mem_insert_of_mem (Finset.mem_singleton_self _))
      exact decide_eq_true ⟨by simpa [extractNodeRefs] using hsource,
        by simpa [extractNodeRefs] using htarget⟩
    | _ => rfl
  | _ => exact absurd hedge (Multiset.notMem_zero _)

theorem act_comm (c : Contents) : act a (act b c) = act b (act a c) := by
  ext1
  · funext ref
    by_cases href : ref ∈ extractNodeRefs a
    · have hother := Finset.disjoint_left.1 hdisjoint href
      simp [act, touchNode_of_notMem hother]
    · simp [act, touchNode_of_notMem href]
  · simp only [act, Multiset.filter_add, Multiset.filter_filter, filter_addedEdges hdisjoint,
      filter_addedEdges hdisjoint.symm, and_comm]
    exact add_left_comm _ _ _

theorem step_comm (c : Contents) : (c.step a).bind (·.step b) = (c.step b).bind (·.step a) := by
  unfold step
  by_cases ha : c.Admits a <;> by_cases hb : c.Admits b <;>
    simp [ha, hb, admits_act hdisjoint, admits_act hdisjoint.symm, act_comm hdisjoint]

end Independent

end Contents

/-! ## The contents of a graph -/

open Contents

theorem find?_replaceF {update : GraphNode → GraphNode}
    (hkeeps : ∀ node, (update node).id = node.id) (renamed ref : NodeRef) (nodes : List GraphNode) :
    (nodes.replaceF fun n => if n.id = renamed then some (update n) else none).find? (·.id = ref) =
      if ref = renamed then (nodes.find? (·.id = ref)).map update
      else nodes.find? (·.id = ref) := by
  induction nodes with
  | nil => simp
  | cons node nodes ih =>
    by_cases hnode : node.id = renamed
    · by_cases href : ref = renamed
      · simp [hnode, href, hkeeps]
      · simp [hnode, href, hkeeps, Ne.symm href]
    · by_cases href : node.id = ref
      · have hother : ref ≠ renamed := href ▸ hnode
        simp [href, hother]
      · simp [hnode, href, ih]

variable {graph : SemanticGraph}

theorem isSome_contents_iff : ((contents graph).node ref).isSome ↔ ref ∈ graph.refs := by
  simp [contents, SemanticGraph.refs]

theorem admits_contents_iff (hbyRef : ByRef payload) :
    (contents graph).Admits payload ↔ ¬ Offends graph payload := by
  cases hbyRef with
  | createNode node =>
    rw [Admits, Offends, ← isSome_contents_iff]
    simp
  | addEdge edge =>
    rw [Admits, Offends, isSome_contents_iff, isSome_contents_iff]
    simp
  | _ => simp [Admits, Offends]

theorem node_contents_applyPayload (hbyRef : ByRef payload)
    (hadmits : (contents graph).Admits payload) (ref : NodeRef) :
    (contents (applyPayload payload graph)).node ref =
      touchNode payload ref ((contents graph).node ref) := by
  cases hbyRef with
  | createNode node =>
    have hfresh : graph.nodes.find? (·.id = node.id) = none := hadmits
    by_cases href : ref = node.id
    · simp [contents, applyPayload, touchNode, href, hfresh]
    · simp [contents, applyPayload, touchNode, href, Ne.symm href]
  | removeNode gone =>
    simp only [contents, applyPayload, removeNode, touchNode, find?_filter]
    by_cases href : ref = gone
    · simp [href]
    · rw [if_neg href]
      congr 1
      funext node
      by_cases hnode : node.id = ref
      · simp [hnode, href]
      · simp [hnode]
  | setNodeName renamed name =>
    exact @find?_replaceF (fun node => { node with name }) (fun _ => rfl) renamed ref _
  | addEdge edge => rfl

/-- A payload that keeps the graph valid acts on its contents. -/
theorem contents_applyPayload (hbyRef : ByRef payload) (hadmits : (contents graph).Admits payload) :
    contents (applyPayload payload graph) = (contents graph).act payload := by
  ext1
  · funext ref
    exact node_contents_applyPayload hbyRef hadmits ref
  · cases hbyRef <;> simp [contents, applyPayload, removeNode, act, addedEdges, keepsEdge]

/-- The op loop is a run on the contents. -/
theorem contents_applyOps (valid : graph.Valid) (hbyRef : ∀ op ∈ ops, ByRef op.payload) :
    (applyOps graph ops).toOption.map contents =
      ops.foldlM (fun c op => c.step op.payload) (contents graph) := by
  induction ops generalizing graph with
  | nil => rfl
  | cons op ops ih =>
    obtain ⟨hop, hrest⟩ := forall_mem_cons.1 hbyRef
    have hadmits := @admits_contents_iff _ graph hop
    rw [foldlM_cons, Contents.step]
    rcases applyOps_cons_of_valid valid op ops with
      ⟨hoffends, reason, herror⟩ | ⟨hkeeps, hvalid, hstep⟩
    · rw [herror, if_neg fun h => hadmits.1 h hoffends]
      rfl
    · rw [hstep, if_pos (hadmits.2 hkeeps), ← contents_applyPayload hop (hadmits.2 hkeeps)]
      exact ih hvalid hrest

/-- Valid graphs with the same contents differ in the order of their lists. -/
theorem perm_of_contents {first second : SemanticGraph} (hfirst : first.Valid)
    (hsecond : second.Valid) (hcontents : contents first = contents second) :
    first.nodes.Perm second.nodes ∧ first.edges.Perm second.edges := by
  refine ⟨?_, Multiset.coe_eq_coe.1 (congrArg Contents.edges hcontents)⟩
  refine (perm_ext_iff_of_nodup (.of_map _ hfirst.nodup) (.of_map _ hsecond.nodup)).2
    fun node => ?_
  have hfind := congrFun (congrArg Contents.node hcontents) node.id
  simp only [contents] at hfind
  simpa [find?_key_eq_some hfirst.nodup, find?_key_eq_some hsecond.nodup] using
    congrArg (· = some node) hfind

theorem applyOps_append (graph : SemanticGraph) (first second : List CanonicalOp) :
    applyOps graph (first ++ second) = (applyOps graph first).bind (applyOps · second) := by
  induction first generalizing graph with
  | nil => rfl
  | cons op first ih =>
    simp only [cons_append, applyOps]
    split
    · rfl
    · exact ih _

theorem mem_touchedNodes {op : CanonicalOp} (hop : op ∈ ops)
    (href : ref ∈ extractNodeRefs op.payload) :
    ref ∈ (StructuralDiff.fromOps ops).touchedNodes := by
  induction ops using List.reverseRecOn with
  | nil => cases hop
  | append_singleton ops last ih =>
    rw [StructuralDiff.fromOps, foldl_concat, Finset.mem_union]
    rcases mem_append.1 hop with hop | hop
    · exact .inl (ih hop)
    · exact .inr (mem_singleton.1 hop ▸ href)

/-! ## Two changesets in a row -/

variable (nodeHash : GraphNode → BlockHash)

/-- The graph after a changeset that is based on the live id, if it applies. -/
def applied (cs : CanonicalChangeSet) (graph : SemanticGraph) : Option SemanticGraph :=
  match apply nodeHash cs.baseSnapshotId cs graph with
  | (.applied, graph') => some graph'
  | _ => none

def applyBoth (first second : CanonicalChangeSet) (graph : SemanticGraph) : Option SemanticGraph :=
  (applied nodeHash first graph).bind (applied nodeHash second)

theorem applied_eq {cs : CanonicalChangeSet} (hpre : cs.preconditions = [])
    (graph : SemanticGraph) :
    applied nodeHash cs graph = (applyOps graph cs.ops).toOption := by
  cases hops : applyOps graph cs.ops <;> simp [applied, apply, hpre, hops, Except.toOption]

theorem applyBoth_eq {first second : CanonicalChangeSet} (hfirst : first.preconditions = [])
    (hsecond : second.preconditions = []) (graph : SemanticGraph) :
    applyBoth nodeHash first second graph =
      (applyOps graph (first.ops ++ second.ops)).toOption := by
  rw [applyBoth, applied_eq nodeHash hfirst, funext (applied_eq nodeHash hsecond), applyOps_append]
  cases applyOps graph first.ops <;> rfl

/-- Two changesets without preconditions whose payloads carry refs, none
of them in both, can be applied to a valid graph in one order exactly if
they can in the other, and then up to order both give the same nodes and
the same edges. -/
theorem applyBoth_comm (graph : SemanticGraph) (hvalidate : graph.validate = .ok ())
    (first second : CanonicalChangeSet) (hfirst : first.preconditions = [])
    (hsecond : second.preconditions = []) (hbyRef : ∀ op ∈ first.ops ++ second.ops,
      ByRef op.payload)
    (hdisjoint : Disjoint (StructuralDiff.fromOps first.ops).touchedNodes
      (StructuralDiff.fromOps second.ops).touchedNodes) :
    ((applyBoth nodeHash first second graph).isSome ↔
      (applyBoth nodeHash second first graph).isSome) ∧
    ∀ graph₁ graph₂, applyBoth nodeHash first second graph = some graph₁ →
      applyBoth nodeHash second first graph = some graph₂ →
      graph₁.nodes.Perm graph₂.nodes ∧ graph₁.edges.Perm graph₂.edges := by
  have valid := (SemanticGraph.validate_eq_ok_iff graph).1 hvalidate
  have hcontents : (applyOps graph (first.ops ++ second.ops)).toOption.map contents =
      (applyOps graph (second.ops ++ first.ops)).toOption.map contents := by
    rw [contents_applyOps valid hbyRef, contents_applyOps valid fun op hop =>
      hbyRef op (mem_append.2 (mem_append.1 hop).symm)]
    refine foldlM_append_comm (fun a ha b hb => step_comm ?_) _
    exact Finset.disjoint_left.2 fun ref hrefa hrefb =>
      Finset.disjoint_left.1 hdisjoint (mem_touchedNodes ha hrefa) (mem_touchedNodes hb hrefb)
  rw [applyBoth_eq nodeHash hfirst hsecond, applyBoth_eq nodeHash hsecond hfirst]
  cases hleft : applyOps graph (first.ops ++ second.ops) with
  | error =>
    cases hright : applyOps graph (second.ops ++ first.ops) with
    | error => exact ⟨Iff.rfl, fun _ _ h => nomatch h⟩
    | ok => cases hleft ▸ hright ▸ hcontents
  | ok graph₁ =>
    cases hright : applyOps graph (second.ops ++ first.ops) with
    | error => cases hleft ▸ hright ▸ hcontents
    | ok graph₂ =>
      refine ⟨Iff.rfl, ?_⟩
      rintro _ _ ⟨⟩ ⟨⟩
      rw [hleft, hright] at hcontents
      exact perm_of_contents (applyOps_valid valid hleft) (applyOps_valid valid hright)
        (Option.some.inj hcontents)

/-- The one removes a node with an edge, the other draws an edge between
two others and renames one of them. -/
theorem applyBoth_comm_removed :
    let graph : SemanticGraph :=
      ⟨[{ id := ⟨1⟩, kind := .module, name := "m" }, { id := ⟨2⟩, kind := .function, name := "f" },
          { id := ⟨3⟩, kind := .function, name := "g" }],
        [{ source := ⟨1⟩, target := ⟨2⟩, kind := .calls }]⟩
    let removal : CanonicalChangeSet :=
      { baseSnapshotId := ⟨0⟩, ops := [{ payload := .removeNode ⟨1⟩ }] }
    let drawing : CanonicalChangeSet :=
      { baseSnapshotId := ⟨0⟩,
        ops := [{ payload := .addEdge { source := ⟨2⟩, target := ⟨3⟩, kind := .calls } },
          { payload := .setNodeName ⟨3⟩ "h" }] }
    (applyBoth (fun _ => ⟨[]⟩) drawing removal graph).isSome := by
  refine (applyBoth_comm _ _ rfl _ _ rfl rfl ?_ (by decide)).1.1 (by decide)
  simp [ByRef.removeNode, ByRef.addEdge, ByRef.setNodeName]

/-! ## Histories in any order -/

/-- No preconditions, and payloads that carry refs. -/
def ByRefOnly (cs : CanonicalChangeSet) : Prop :=
  cs.preconditions = [] ∧ ∀ op ∈ cs.ops, ByRef op.payload

noncomputable def stepOps (c : Contents) (cs : CanonicalChangeSet) : Option Contents :=
  cs.ops.foldlM (fun c op => c.step op.payload) c

/-- A serial history is a run on contents, and leaves a valid graph. -/
theorem replay_contents {history : List CanonicalChangeSet} (valid : graph.Valid)
    (hplain : ∀ cs ∈ history, ByRefOnly cs) {id : SnapshotId} :
    (replay nodeHash id graph history).map (contents ·.2) =
        history.foldlM stepOps (contents graph) ∧
      ∀ point ∈ replay nodeHash id graph history, point.2.Valid := by
  induction history generalizing id graph with
  | nil => exact ⟨rfl, fun _ h => Option.some.inj h ▸ valid⟩
  | cons cs history ih =>
    obtain ⟨⟨hpre, hbyRef⟩, hrest⟩ := forall_mem_cons.1 hplain
    have hstep : replayStep nodeHash (id, graph) cs =
        (applyOps graph cs.ops).toOption.map (advance id, ·) := by
      cases hops : applyOps graph cs.ops <;>
        simp [replayStep, rebasedOnto, apply, hpre, hops, Except.toOption]
    rw [replay, foldlM_cons, foldlM_cons, hstep, stepOps, ← contents_applyOps valid hbyRef]
    cases hops : applyOps graph cs.ops with
    | error => exact ⟨rfl, fun _ h => by cases h⟩
    | ok graph' => exact ih (applyOps_valid valid hops) hrest

/-- Changesets a run accepted may as well be committed in any other order,
if their payloads carry refs, none of them in two: up to the order of
its lists the graph is the same. -/
theorem accepted_in_any_order (initialId : SnapshotId) (graph : SemanticGraph)
    (hvalidate : graph.validate = .ok ()) (submissions : List CanonicalChangeSet) :
    let final := run (submit nodeHash) (.new initialId graph) submissions
    (∀ cs ∈ accepted final.2, ByRefOnly cs) →
    (accepted final.2).Pairwise (fun a b => Disjoint (StructuralDiff.fromOps a.ops).touchedNodes
      (StructuralDiff.fromOps b.ops).touchedNodes) →
    ∀ history, (accepted final.2).Perm history →
      ∃ id graph', replay nodeHash initialId graph history = some (id, graph') ∧
        final.1.graph.nodes.Perm graph'.nodes ∧ final.1.graph.edges.Perm graph'.edges := by
  intro final hplain hdisjoint history hperm
  have valid := (SemanticGraph.validate_eq_ok_iff graph).1 hvalidate
  have follows : Follows nodeHash initialId graph final.1 final.2 :=
    follows_run initialId valid submissions
  have hcomm : (accepted final.2).Pairwise fun a b => ∀ c,
      (stepOps c a).bind (stepOps · b) = (stepOps c b).bind (stepOps · a) := by
    refine hdisjoint.imp fun {a b} hab c => ?_
    have h := foldlM_append_comm (fun x hx y hy => @step_comm x.payload y.payload (hab.mono
      (fun _ href => mem_touchedNodes hx href) fun _ href => mem_touchedNodes hy href)) c
    rwa [foldlM_append, foldlM_append] at h
  have hleft := @replay_contents _ nodeHash _ valid hplain initialId
  obtain ⟨hright, hvalid⟩ := @replay_contents _ nodeHash history valid
    (fun cs h => hplain cs (hperm.mem_iff.2 h)) initialId
  rw [follows.replayed, foldlM_perm hperm hcomm, ← hright] at hleft
  obtain ⟨⟨id, graph'⟩, hreplay, hcontents⟩ := Option.map_eq_some_iff.1 hleft.1.symm
  exact ⟨id, graph', hreplay, perm_of_contents follows.valid (hvalid _ hreplay) hcontents.symm⟩

theorem accepted_in_any_order_created :
    let create (id : NodeRef) : CanonicalChangeSet :=
      { baseSnapshotId := ⟨0⟩,
        ops := [{ payload := .createNode { id, kind := .module, name := "m" } }] }
    ∃ point, replay (fun _ => ⟨[]⟩) ⟨0⟩ .empty [create ⟨2⟩, create ⟨1⟩] = some point := by
  intro create
  obtain ⟨id, graph', hreplay, -⟩ := accepted_in_any_order (fun _ => ⟨[]⟩) ⟨0⟩ .empty rfl
    [create ⟨1⟩, create ⟨2⟩]
    (show ∀ cs ∈ [create ⟨1⟩, create ⟨2⟩], _ by simp [create, ByRefOnly, ByRef.createNode])
    (show Pairwise _ [create ⟨1⟩, create ⟨2⟩] by decide) _ (.swap ..)
  exact ⟨_, hreplay⟩

end Ail.Coordinator
