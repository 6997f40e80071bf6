import Ail.Compiler.Incremental

/-!
# The invalidation order

`propagate_with_order` (`incremental.rs`) as it runs: the dirty set, the
queue and the order are values of their own, and a caller is queued and
listed when the set takes it in. What is left at the end is read off the
worklist of `DirtySet.propagate` (`run_eq`).
-/

namespace Ail.Compiler

open Ail.Core Lib List DirtySet

/-- What the loop holds. -/
structure Propagation where
  dirty : Finset NodeRef
  queue : List NodeRef
  order : List NodeRef

/-- One turn of the inner loop; a caller that is dirty already is passed over. -/
def Propagation.enqueue (state : Propagation) (caller : NodeRef) : Propagation :=
  if caller ∈ state.dirty then state
  else ⟨insert caller state.dirty, state.queue ++ [caller], state.order ++ [caller]⟩

def Propagation.run (graph : SemanticGraph) : Nat → Propagation → Propagation
  | 0, state => state
  | fuel + 1, ⟨dirty, queue, order⟩ =>
    match queue with
    | [] => ⟨dirty, [], order⟩
    | dirtyRef :: queue =>
      run graph fuel ((callers graph dirtyRef).foldl enqueue ⟨dirty, queue, order⟩)

/-- The ordered set is given by its list. -/
def DirtySet.propagateWithOrder (graph : SemanticGraph) (dirty : List NodeRef) : Propagation :=
  .run graph (dirty.length + graph.edges.length) ⟨dirty.toFinset, dirty, dirty⟩

open Propagation

theorem foldl_enqueue (found queue order : List NodeRef) :
    found.foldl enqueue ⟨order.toFinset, queue, order⟩ =
      ⟨(order ++ unseen order found).toFinset, queue ++ unseen order found,
        order ++ unseen order found⟩ := by
  induction found generalizing queue order with
  | nil => simp [unseen]
  | cons caller found ih =>
    rw [foldl_cons, enqueue, unseen]
    simp only [mem_toFinset]
    split
    · exact ih queue order
    · have hset : insert caller order.toFinset = (order ++ [caller]).toFinset := by
        ext ref
        simp
      rw [hset, ih]
      simp

/-- With fuel for the queue and for every source not yet dirty, the queue
runs empty. -/
theorem run_eq (graph : SemanticGraph) (fuel : Nat) (queue order : List NodeRef)
    (hfuel : queue.length + ((graph.edges.map (·.source)).toFinset \ order.toFinset).card ≤ fuel) :
    run graph fuel ⟨order.toFinset, queue, order⟩ =
      ⟨(saturate (callers graph) fuel queue order).toFinset, [],
        saturate (callers graph) fuel queue order⟩ := by
  fun_induction saturate (callers graph) fuel queue order with
  | case1 queue order =>
    obtain rfl : queue = [] := length_eq_zero_iff.1 (by omega)
    rfl
  | case2 => rfl
  | case3 fuel ref queue order ih =>
    rw [Propagation.run, foldl_enqueue]
    refine ih ?_
    have hcard := @card_sdiff_unseen _ _ _ order _ (mem_sources_of_callers graph ref)
    simp only [length_cons, length_append] at hfuel ⊢
    omega

/-- `caller` has an edge to `callee`. -/
def Calls (graph : SemanticGraph) (caller callee : NodeRef) : Prop :=
  ∃ edge ∈ graph.edges, edge.source = caller ∧ edge.target = callee

theorem mem_propagate_iff {graph : SemanticGraph} {dirty : List NodeRef} {ref : NodeRef} :
    ref ∈ propagate graph dirty ↔
      ∃ start ∈ dirty, Relation.ReflTransGen (Calls graph) ref start := by
  have hsources : ∀ callee caller, Function.swap (Calls graph) callee caller →
      caller ∈ graph.edges.map (·.source) := by
    rintro callee caller ⟨edge, hedge, rfl, -⟩
    exact mem_map_of_mem hedge
  rw [propagate, mem_saturate_iff (fun callee caller => ?_) hsources (by rw [length_map])]
  · simp [Relation.reflTransGen_swap]
  · rw [mem_callers]
    simp [Calls, and_comm]

/-- Batches of changes, each propagated on top of the last, mark what one
propagation from all of them does. -/
theorem propagate_in_batches (graph : SemanticGraph) (batches : List (List NodeRef))
    (ref : NodeRef) :
    ref ∈ batches.foldl (fun dirty more => propagate graph (dirty ++ more)) [] ↔
      ref ∈ propagate graph batches.flatten := by
  induction batches using reverseRecOn generalizing ref with
  | nil => simp [mem_propagate_iff]
  | append_singleton batches more ih =>
    rw [foldl_concat, flatten_concat]
    simp only [mem_append, ih, mem_propagate_iff, or_and_right, exists_or]
    refine or_congr_left ⟨?_, ?_⟩
    · rintro ⟨start, ⟨first, hmem, hfirst⟩, hstart⟩
      exact ⟨first, hmem, hstart.trans hfirst⟩
    · rintro ⟨start, hmem, hstart⟩
      exact ⟨start, ⟨start, hmem, .refl⟩, hstart⟩

/-- A sorted list of refs does not remember the order it was built in. -/
theorem sortRefs_perm {refs refs' : List NodeRef} (hperm : refs.Perm refs') :
    sortRefs refs = sortRefs refs' := by
  have hsorted : ∀ refs, (sortRefs refs).Pairwise fun a b => decide (a.val ≤ b.val) = true := by
    refine pairwise_mergeSort (fun a b c hab hbc => ?_) fun a b => ?_
    · exact decide_eq_true (UInt32.le_trans (of_decide_eq_true hab) (of_decide_eq_true hbc))
    · simpa using UInt32.le_total a.val b.val
  refine List.Perm.eq_of_pairwise (fun a b _ _ hab hba => ?_) (hsorted refs) (hsorted refs')
    ((mergeSort_perm refs _).trans (hperm.trans (mergeSort_perm refs' _).symm))
  exact congrArg NodeRef.mk (UInt32.le_antisymm (of_decide_eq_true hab) (of_decide_eq_true hba))

/-- Propagation ends, and leaves the nodes from which a dirty node is
reached, each listed once, whatever the order of the edges. -/
theorem propagateWithOrder_exact (graph : SemanticGraph) {dirty : List NodeRef}
    (hset : dirty.Nodup) :
    (DirtySet.propagateWithOrder graph dirty).queue = [] ∧
    (∀ ref, ref ∈ (DirtySet.propagateWithOrder graph dirty).dirty ↔
      ∃ start ∈ dirty, Relation.ReflTransGen (Calls graph) ref start) ∧
    (DirtySet.propagateWithOrder graph dirty).order.Nodup ∧
    (∀ ref, ref ∈ (DirtySet.propagateWithOrder graph dirty).order ↔
      ref ∈ (DirtySet.propagateWithOrder graph dirty).dirty) ∧
    ∀ edges, edges.Perm graph.edges →
      DirtySet.propagateWithOrder { graph with edges } dirty =
        DirtySet.propagateWithOrder graph dirty := by
  have hrun := run_eq graph _ dirty dirty (Nat.add_le_add_left (card_sources_le graph dirty) _)
  rw [← propagateWithOrder, ← propagate] at hrun
  refine ⟨by rw [hrun], fun ref => ?_, ?_, fun ref => ?_, fun edges hperm => ?_⟩
  · rw [hrun, mem_toFinset, mem_propagate_iff]
  · rw [hrun]
    exact nodup_saturate _ _ _ hset
  · rw [hrun, mem_toFinset]
  · have hcallers : callers { graph with edges } = callers graph := by
      funext ref
      exact sortRefs_perm ((hperm.filter _).map _)
    have hloop : ∀ fuel state, run { graph with edges } fuel state =
        run graph fuel state := by
      intro fuel
      induction fuel with
      | zero => exact fun _ => rfl
      | succ fuel ih =>
        rintro ⟨dirty, _ | ⟨ref, queue⟩, order⟩
        · rfl
        · rw [Propagation.run, Propagation.run, hcallers, ih]
    rw [propagateWithOrder, propagateWithOrder, hloop, hperm.length_eq]

/-- Two functions that call each other: both are rebuilt when one changes. -/
theorem propagateWithOrder_exact_mutual :
    (⟨1⟩ : NodeRef) ∈ (DirtySet.propagateWithOrder
      ⟨[], [{ source := ⟨0⟩, target := ⟨1⟩, kind := .calls },
        { source := ⟨1⟩, target := ⟨0⟩, kind := .calls }]⟩ [⟨0⟩]).dirty :=
  ((propagateWithOrder_exact _ (by decide)).2.1 _).2
    ⟨_, .head _, .single ⟨_, .tail _ (.head _), rfl, rfl⟩⟩

end Ail.Compiler
