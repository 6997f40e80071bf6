import Ail.Core.SemanticGraph

/-!
# Additive graph merge

`merge_graphs_additive`: the target graph with the nodes of the source
graph whose name it lacks, under new refs, and with the source's edges
redrawn between the nodes of the same names. A name both graphs have
stays the target's node; if the two nodes differ the name is reported.
-/

namespace Ail.Cli

open Ail.Core

/-- `u32::saturating_add(1)`. -/
def saturatingSucc (ref : UInt32) : UInt32 :=
  if ref = 0xFFFFFFFF then ref else ref + 1

/-- The loop state of the node pass. `refMap` has the latest entry for a
name first. -/
structure NodeMerge where
  nodes : List GraphNode
  nextRef : UInt32
  refMap : List (String × NodeRef)
  conflicts : List String

def mergeNode (merge : NodeMerge) (node : GraphNode) : NodeMerge :=
  match merge.nodes.find? (·.name = node.name) with
  | some existing =>
    if existing ≠ node then { merge with conflicts := merge.conflicts ++ [node.name] } else merge
  | none =>
    { merge with
      nodes := merge.nodes ++ [{ node with id := ⟨merge.nextRef⟩ }]
      nextRef := saturatingSucc merge.nextRef
      refMap := (node.name, ⟨merge.nextRef⟩) :: merge.refMap }

/-- An edge of the source between the merged nodes of the same names, if
both ends can be named and found. -/
def mappedEdge (nameOf : List (NodeRef × String)) (refMap : List (String × NodeRef))
    (edge : GraphEdge) : Option GraphEdge := do
  let sourceRef ← refMap.lookup (← nameOf.lookup edge.source)
  let targetRef ← refMap.lookup (← nameOf.lookup edge.target)
  return { edge with source := sourceRef, target := targetRef }

/-- An edge is added unless an equal one is there. -/
def mergeEdge (edges : List GraphEdge) (edge : GraphEdge) : List GraphEdge :=
  if edge ∈ edges then edges else edges ++ [edge]

/-- The merged graph and the names that changed in both graphs. -/
def mergeGraphsAdditive (target source : SemanticGraph) : SemanticGraph × List String :=
  let start : NodeMerge :=
    { nodes := target.nodes
      nextRef := saturatingSucc ((target.nodes.map (·.id.val)).foldl max 0)
      refMap := (target.nodes.map fun node => (node.name, node.id)).reverse
      conflicts := [] }
  let nameOf := (source.nodes.map fun node => (node.id, node.name)).reverse
  let merge := source.nodes.foldl mergeNode start
  let edges := (source.edges.filterMap (mappedEdge nameOf merge.refMap)).foldl mergeEdge
    target.edges
  (⟨merge.nodes, edges⟩, merge.conflicts)

end Ail.Cli
