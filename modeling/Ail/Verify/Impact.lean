import Ail.Verify.Stages

/-!
# Impact analysis

Stage 12 walks the edges of the target twice for each invariant: over all
of them in both directions, and back over the `BreaksIfChanged` ones. Both
walks have the fuel to end (`mem_reachableFrom`, `mem_breaksIfChanged`),
so an invariant is left unverified exactly if a changed node it is joined
to is not declared to break it (`checkInvariants_exact`).
-/

namespace Ail.Verify

open Ail.Core Lib List Relation

variable {base target graph : SemanticGraph}

def Joined (graph : SemanticGraph) (ref ref' : NodeRef) : Prop :=
  ∃ edge ∈ graph.edges, edge.source = ref ∧ edge.target = ref' ∨ edge.target = ref ∧
    edge.source = ref'

def Breaks (graph : SemanticGraph) (ref ref' : NodeRef) : Prop :=
  ∃ edge ∈ graph.edges, edge.kind = .breaksIfChanged ∧ edge.target = ref' ∧ edge.source = ref

/-- The node is new, or its types or effects are not those of the base
node of its name. -/
def Changed (base : SemanticGraph) (node : GraphNode) : Prop :=
  (∀ before ∈ base.nodes, before.name ≠ node.name) ∨ ∃ before ∈ base.nodes,
    before.name = node.name ∧
    (before.typeFacts ≠ node.typeFacts ∨ before.effectRow ≠ node.effectRow)

/-- A changed node the invariant is joined to and is not declared to
break with. -/
def Impacted (base target : SemanticGraph) (invariant : GraphNode) : Prop :=
  ∃ node ∈ target.nodes, node ≠ invariant ∧ Changed base node ∧
    ReflTransGen (Joined target) invariant.id node.id ∧
    ¬ TransGen (Breaks target) node.id invariant.id

theorem mem_reachableFrom {ref ref' : NodeRef} :
    ref' ∈ reachableFrom graph ref ↔ ReflTransGen (Joined graph) ref ref' := by
  have hends : ∀ cur other, Joined graph cur other →
      other ∈ graph.edges.map (·.target) ++ graph.edges.map (·.source) := by
    rintro cur other ⟨edge, hedge, ⟨-, rfl⟩ | ⟨-, rfl⟩⟩
    · exact mem_append_left _ (mem_map_of_mem hedge)
    · exact mem_append_right _ (mem_map_of_mem hedge)
  rw [reachableFrom, mem_saturate_iff (fun cur other => ?_) hends (by simp; omega)]
  · simp
  · simp [Joined, eq_comm]

theorem mem_breaksIfChanged {ref ref' : NodeRef} :
    ref' ∈ breaksIfChanged graph ref ↔ ReflTransGen (Breaks graph) ref' ref := by
  have hsources : ∀ cur other, Function.swap (Breaks graph) cur other →
      other ∈ graph.edges.map (·.source) := by
    rintro cur other ⟨edge, hedge, -, -, rfl⟩
    exact mem_map_of_mem hedge
  rw [breaksIfChanged, mem_saturate_iff (fun cur other => ?_) hsources (by simp; omega)]
  · simp [reflTransGen_swap]
  · simp [Breaks, and_assoc, eq_comm (a := other)]

theorem mem_changedRefs (hbase : (base.nodes.map (·.name)).Nodup) {ref : NodeRef} :
    ref ∈ changedRefs base target ↔ ∃ node ∈ target.nodes, Changed base node ∧ node.id = ref := by
  simp only [changedRefs, mem_map, mem_filter, and_assoc]
  refine exists_congr fun node => and_congr_right fun _ => and_congr_left fun _ => ?_
  cases hfind : base.nodes.reverse.find? (·.name = node.name) with
  | none =>
    refine iff_of_true rfl (.inl fun before hbefore hname => ?_)
    simpa [hname] using find?_eq_none.1 hfind before (mem_reverse.2 hbefore)
  | some before =>
    have hmem := mem_reverse.1 (mem_of_find?_eq_some hfind)
    have hname : before.name = node.name := by simpa using find?_some hfind
    simp only [differsIn, Bool.or_eq_true, decide_eq_true_eq]
    refine ⟨fun h => .inr ⟨before, hmem, hname, h⟩, ?_⟩
    rintro (hnew | ⟨other, hother, hsame, h⟩)
    · exact absurd hname (hnew before hmem)
    · rwa [← inj_on_of_nodup_map hbase hother hmem (hsame.trans hname.symm)]

theorem uncoveredChanges_eq_nil_iff (hbase : (base.nodes.map (·.name)).Nodup)
    (htarget : (target.nodes.map (·.id)).Nodup) {invariant : GraphNode}
    (hinvariant : invariant ∈ target.nodes) :
    uncoveredChanges base target invariant.id = [] ↔ ¬ Impacted base target invariant := by
  simp only [uncoveredChanges, filterMap_eq_nil_iff, mem_filter, mem_insertionSort, mem_dedup,
    mem_changedRefs hbase, Option.map_eq_none_iff, find?_eq_none, decide_eq_true_eq,
    mem_reachableFrom, mem_breaksIfChanged]
  constructor
  · rintro hnil ⟨node, hnode, hne, hchanged, hjoined, hbreaks⟩
    have hid : node.id ≠ invariant.id :=
      fun hid => hne (inj_on_of_nodup_map htarget hnode hinvariant hid)
    refine hnil node.id ⟨⟨⟨node, hnode, hchanged, rfl⟩, hid, hjoined⟩, fun hpath => ?_⟩
      node hnode rfl
    exact (reflTransGen_iff_eq_or_transGen.1 hpath).elim (fun heq => hid heq.symm) hbreaks
  · rintro himpact _ ⟨⟨⟨node, hnode, hchanged, rfl⟩, hid, hjoined⟩, hbreaks⟩
    exact absurd ⟨node, hnode, fun heq => hid (heq ▸ rfl), hchanged, hjoined,
      fun hpath => hbreaks hpath.to_reflTransGen⟩ himpact

/-- An invariant is unverified exactly if it is impacted, and proven
otherwise. -/
theorem checkInvariants_exact (hbase : (base.nodes.map (·.name)).Nodup)
    (htarget : (target.nodes.map (·.id)).Nodup) {index : Nat} {invariant : GraphNode}
    (hinvariant : (target.nodes.filter (·.kind = .invariant))[index]? = some invariant) :
    ∃ entry, (checkInvariants (some base) target)[index]? = some entry ∧
      entry.scope = invariant.name ∧
      (entry.state = .unverified ↔ Impacted base target invariant) ∧
      (entry.state = .proven ↔ ¬ Impacted base target invariant) := by
  have hmem := (mem_filter.1 (mem_of_getElem? hinvariant)).1
  have hnil := uncoveredChanges_eq_nil_iff hbase htarget hmem
  refine ⟨invariantEntry base target invariant, ?_, ?_⟩
  · unfold checkInvariants
    split
    · next hnone => simp [hnone] at hinvariant
    · next heq _ => cases heq
    · next heq _ => cases heq; rw [getElem?_map, hinvariant]; rfl
  · rw [invariantEntry]
    split
    · next heq => simpa [stageEntry, makeEntry] using hnil.1 heq
    · next hne => simpa [stageEntry, makeEntry] using not_not.1 (mt hnil.2 hne)

/-- Two invariants that depend on each other, one of them new. -/
theorem checkInvariants_exact_cycle :
    let total : GraphNode := { id := ⟨0⟩, kind := .invariant, name := "total" }
    let target : SemanticGraph := {
      nodes := [total, { id := ⟨1⟩, kind := .invariant, name := "paid" }]
      edges := [{ source := ⟨0⟩, target := ⟨1⟩, kind := .dependsOn },
        { source := ⟨1⟩, target := ⟨0⟩, kind := .dependsOn }] }
    ∃ entry, (checkInvariants (some ⟨[total], []⟩) target)[0]? = some entry ∧
      entry.scope = "total" ∧ (entry.state = .unverified ↔ Impacted ⟨[total], []⟩ target total) ∧
      (entry.state = .proven ↔ ¬ Impacted ⟨[total], []⟩ target total) := by
  intro total target
  have hbase : ((⟨[total], []⟩ : SemanticGraph).nodes.map (·.name)).Nodup := by decide
  have htarget : (target.nodes.map (·.id)).Nodup := by decide
  have hfirst : (target.nodes.filter (·.kind = .invariant))[0]? = some total := rfl
  exact checkInvariants_exact hbase htarget hfirst

end Ail.Verify
