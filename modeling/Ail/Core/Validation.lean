import Ail.Core.SemanticGraph

/-!
# Structural validation

`validate` answers the first violation it meets: a node ref used twice
(first pass, in node order), then an edge endpoint that names no node
(second pass, in edge order, the source before the target).

`Valid` states the same discipline without the passes, and
`validate_eq_ok_iff` says that the passes decide it.
-/

namespace Ail.Core

open List

inductive DanglingRole where
  | source | target
  deriving DecidableEq

/-- The violations `validate` reports. -/
inductive GraphValidationError where
  | duplicateRef (ref : NodeRef)
  | danglingEdge (ref : NodeRef) (role : DanglingRole)
  deriving DecidableEq

/-- The `{:?}` rendering of a node ref. -/
def NodeRef.debug (ref : NodeRef) : String := "NodeRef(" ++ toString ref.val ++ ")"

def DanglingRole.debug : DanglingRole → String
  | .source => "Source"
  | .target => "Target"

/-- The `{:?}` rendering of a violation. -/
def GraphValidationError.debug : GraphValidationError → String
  | .duplicateRef ref => "DuplicateRef(" ++ ref.debug ++ ")"
  | .danglingEdge ref role =>
    "DanglingEdge \x7b ref: " ++ ref.debug ++ ", role: " ++ role.debug ++ " \x7d"

namespace SemanticGraph

/-- Pass 1: the set of known refs, refusing the first ref seen twice. -/
def knownRefs : List GraphNode → List NodeRef → Except GraphValidationError (List NodeRef)
  | [], seen => .ok seen
  | node :: nodes, seen =>
    if node.id ∈ seen then .error (.duplicateRef node.id) else knownRefs nodes (node.id :: seen)

/-- Pass 2: every endpoint is a known ref. -/
def checkEdges (seen : List NodeRef) : List GraphEdge → Except GraphValidationError Unit
  | [] => .ok ()
  | edge :: edges =>
    if edge.source ∉ seen then .error (.danglingEdge edge.source .source)
    else if edge.target ∉ seen then .error (.danglingEdge edge.target .target)
    else checkEdges seen edges

/-- The structural check every applied op is followed by. -/
def validate (graph : SemanticGraph) : Except GraphValidationError Unit :=
  match knownRefs graph.nodes [] with
  | .error err => .error err
  | .ok seen => checkEdges seen graph.edges

/-- The discipline itself: refs are unique and no edge dangles. -/
structure Valid (graph : SemanticGraph) : Prop where
  nodup : graph.refs.Nodup
  source_mem : ∀ edge ∈ graph.edges, edge.source ∈ graph.refs
  target_mem : ∀ edge ∈ graph.edges, edge.target ∈ graph.refs

/-! ## The passes decide the discipline -/

/-- Pass 1 succeeds exactly on fresh, pairwise distinct refs. -/
theorem knownRefs_isOk_iff (nodes : List GraphNode) (seen : List NodeRef) :
    (∃ known, knownRefs nodes seen = .ok known) ↔
      (nodes.map (·.id)).Nodup ∧ ∀ node ∈ nodes, node.id ∉ seen := by
  induction nodes generalizing seen with
  | nil => simp [knownRefs]
  | cons node nodes ih =>
    simp only [knownRefs]
    split
    · rename_i hseen
      simp [hseen]
    · rename_i hfresh
      rw [ih]
      simp only [map_cons, nodup_cons, mem_map, mem_cons, not_or,
        forall_eq_or_imp, hfresh, not_false_eq_true, true_and]
      constructor
      · rintro ⟨hnodup, hnodes⟩
        exact ⟨⟨fun ⟨other, hmem, heq⟩ => (hnodes other hmem).1 heq, hnodup⟩,
          fun other hmem => (hnodes other hmem).2⟩
      · rintro ⟨⟨hnew, hnodup⟩, hnodes⟩
        exact ⟨hnodup, fun other hmem => ⟨fun heq => hnew ⟨other, hmem, heq⟩, hnodes other hmem⟩⟩

/-- What pass 1 collects is what it was given and the refs it passed. -/
theorem mem_knownRefs {nodes : List GraphNode} {seen known : List NodeRef}
    (hknown : knownRefs nodes seen = .ok known) (ref : NodeRef) :
    ref ∈ known ↔ ref ∈ seen ∨ ref ∈ nodes.map (·.id) := by
  induction nodes generalizing seen with
  | nil =>
    obtain rfl : seen = known := by simpa [knownRefs] using hknown
    simp
  | cons node nodes ih =>
    simp only [knownRefs] at hknown
    split at hknown
    · exact nomatch hknown
    · rw [ih hknown]
      simp only [mem_cons, map_cons]
      tauto

theorem checkEdges_eq_ok_iff (seen : List NodeRef) (edges : List GraphEdge) :
    checkEdges seen edges = .ok () ↔ ∀ edge ∈ edges, edge.source ∈ seen ∧ edge.target ∈ seen := by
  induction edges with
  | nil => simp [checkEdges]
  | cons edge edges ih =>
    by_cases hsource : edge.source ∈ seen <;> by_cases htarget : edge.target ∈ seen <;>
      simp [checkEdges, hsource, htarget, ih]

/-- `validate` succeeds exactly on the valid graphs. -/
theorem validate_eq_ok_iff (graph : SemanticGraph) : graph.validate = .ok () ↔ graph.Valid := by
  unfold validate
  cases hknown : knownRefs graph.nodes [] with
  | error err =>
    have hnot : ¬ ∃ known, knownRefs graph.nodes [] = .ok known := by simp [hknown]
    rw [knownRefs_isOk_iff] at hnot
    exact ⟨fun h => (nomatch h), fun valid => absurd ⟨valid.nodup, by simp⟩ hnot⟩
  | ok known =>
    have hnodup := ((knownRefs_isOk_iff graph.nodes []).1 ⟨known, hknown⟩).1
    have hmem : ∀ ref, ref ∈ known ↔ ref ∈ graph.refs := by
      intro ref
      simpa [refs] using mem_knownRefs hknown ref
    simp only [checkEdges_eq_ok_iff, hmem]
    exact ⟨fun h => ⟨hnodup, fun e he => (h e he).1, fun e he => (h e he).2⟩,
      fun valid e he => ⟨valid.source_mem e he, valid.target_mem e he⟩⟩

instance (graph : SemanticGraph) : Decidable graph.Valid :=
  decidable_of_iff _ graph.validate_eq_ok_iff

/-- Validity speaks about refs and edges only. -/
theorem Valid.congr {graph graph' : SemanticGraph} (valid : graph.Valid)
    (hrefs : graph'.refs = graph.refs) (hedges : ∀ edge ∈ graph'.edges, edge ∈ graph.edges) :
    graph'.Valid := by
  refine ⟨hrefs ▸ valid.nodup, fun edge hmem => ?_, fun edge hmem => ?_⟩
  · exact hrefs ▸ valid.source_mem edge (hedges edge hmem)
  · exact hrefs ▸ valid.target_mem edge (hedges edge hmem)

theorem valid_empty : empty.Valid := (validate_eq_ok_iff _).1 rfl

end SemanticGraph

end Ail.Core
