import Mathlib

/-!
# The semantic graph — nodes, edges and their payload records

The canonical program representation: a list of typed nodes and a list
of typed directed edges between them (`ail-core`, `semantic_graph`).
Both are lists, in insertion order, because the order is part of the
encoded bytes and because every by-name lookup of the crates takes the
FIRST node that answers to the name.

The records carry every field of the source: a node's hash is taken over
the whole node, so two nodes are the same node only if all of it agrees.
-/

namespace Ail.Core

/-- Stable identity of a graph node. -/
structure NodeRef where
  val : UInt32
  deriving DecidableEq

inductive NodeKind where
  | module | function | type | effect | capability | contract | invariant | test | boundary
  | package | interface | impl | effectAlias | import | export | versionConstraint
  | capabilityExport | contractExport
  deriving DecidableEq

inductive EdgeKind where
  | calls | dynCalls | reads | writes | emits | dependsOn | proves | breaksIfChanged
  | consumes | releases | spawnedBy | childOf | safeCapability
  deriving DecidableEq

/-! ## The records a node carries -/

structure ContentHash where
  hex : String
  deriving DecidableEq

structure Provenance where
  changeId : String
  deriving DecidableEq

structure SchemaRef where
  version : String
  deriving DecidableEq

inductive TrustLevel where
  | verified | assumed | unverified | unsafeLevel
  | custom (tag : String)
  deriving DecidableEq

def TrustLevel.asStr : TrustLevel → String
  | .verified => "verified"
  | .assumed => "assumed"
  | .unverified => "unverified"
  | .unsafeLevel => "unsafe"
  | .custom tag => tag

structure TrustMetadata where
  level : TrustLevel
  tags : List String
  deriving DecidableEq

structure Span where
  source : String
  start : UInt32
  stop : UInt32
  deriving DecidableEq

structure ContractClauses where
  requires : List String
  ensures : List String
  deriving DecidableEq

structure RuntimeCheckMeta where
  predicate : String
  hash : String
  deriving DecidableEq

structure TypeFacts where
  nominal : String
  generics : List String
  deriving DecidableEq

inductive GenericParamKind where
  | typeParam | effectParam | capabilityParam | constParam
  deriving DecidableEq

structure AssociatedTypeBinding where
  name : String
  ty : String
  deriving DecidableEq

structure WhereConstraint where
  interface : String
  targetParam : Option String
  associatedTypes : List AssociatedTypeBinding
  deriving DecidableEq

structure GenericParamDecl where
  name : String
  kind : GenericParamKind
  requiredConstraints : List WhereConstraint
  deriving DecidableEq

structure ParamDecl where
  name : String
  ty : String
  deriving DecidableEq

structure InterfaceImplMeta where
  interface : String
  associatedTypes : List AssociatedTypeBinding
  isAdapter : Bool
  deriving DecidableEq

inductive RefinementStatus where
  | proven | runtimeChecked | assumed | unverified | failed
  deriving DecidableEq

structure RefinementRef where
  baseType : String
  predicate : String
  status : RefinementStatus
  erased : Bool
  deriving DecidableEq

structure ConstraintSet where
  hasEq : Bool
  hasOrd : Bool
  hasHash : Bool
  hasPartialOrd : Bool
  extras : List String
  deriving DecidableEq

structure TypeArgBinding where
  param : String
  ty : String
  deriving DecidableEq

structure EffectArgBinding where
  param : String
  effects : List String
  deriving DecidableEq

structure CapabilityArgBinding where
  param : String
  caps : List String
  deriving DecidableEq

structure EffectRow where
  effects : List String
  deriving DecidableEq

structure CapabilityReqs where
  caps : List String
  deriving DecidableEq

inductive Visibility where
  | pub | priv | internal
  deriving DecidableEq

structure Binding where
  name : String
  implementation : String
  profile : Option String
  deriving DecidableEq

structure InferredFact where
  kind : String
  value : String
  deriving DecidableEq

structure GeneratedArtifact where
  kind : String
  source : Option String
  deriving DecidableEq

structure Assertion where
  kind : String
  value : String
  deriving DecidableEq

inductive WorkflowState where
  | draft | locked | approved | rejected | verified | migrating | refactoring
  deriving DecidableEq

structure HandlerMeta where
  handledCaps : List String
  internalEffects : List String
  satisfiesContract : Option String
  deriving DecidableEq

/-! ## Nodes, edges and the graph -/

/-- A node of the semantic graph. The field defaults are those of
`GraphNode::new`: everything optional absent, every collection empty. -/
structure GraphNode where
  id : NodeRef
  kind : NodeKind
  name : String
  typeFacts : Option TypeFacts := none
  effectRow : Option EffectRow := none
  capabilityReqs : Option CapabilityReqs := none
  contractClauses : Option ContractClauses := none
  runtimeChecks : Option (List RuntimeCheckMeta) := none
  contentHash : Option ContentHash := none
  provenance : Option Provenance := none
  schema : Option SchemaRef := none
  trustMetadata : Option TrustMetadata := none
  genericParams : Option (List GenericParamDecl) := none
  params : Option (List ParamDecl) := none
  returnType : Option String := none
  bodyExpr : Option String := none
  interfaceImpls : Option (List InterfaceImplMeta) := none
  refinementRef : Option RefinementRef := none
  constraintSet : Option ConstraintSet := none
  visibility : Option Visibility := none
  bindings : List Binding := []
  inferred : List InferredFact := []
  derivedImpls : List String := []
  generatedArtifacts : List GeneratedArtifact := []
  assertions : List Assertion := []
  workflowState : Option WorkflowState := none
  handlerMeta : Option HandlerMeta := none
  span : Option Span := none
  stableId : Option String := none
  deriving DecidableEq

/-- A directed, typed edge. The defaults are those of `GraphEdge::new`:
no call-site metadata. -/
structure GraphEdge where
  source : NodeRef
  target : NodeRef
  kind : EdgeKind
  callArgs : Option (List String) := none
  typeArgBindings : Option (List TypeArgBinding) := none
  effectArgBindings : Option (List EffectArgBinding) := none
  capabilityArgBindings : Option (List CapabilityArgBinding) := none
  deriving DecidableEq

structure SemanticGraph where
  nodes : List GraphNode
  edges : List GraphEdge
  deriving DecidableEq

namespace SemanticGraph

/-- The graph with neither node nor edge. -/
def empty : SemanticGraph := ⟨[], []⟩

/-- The refs of the graph's nodes, in node order. -/
def refs (graph : SemanticGraph) : List NodeRef := graph.nodes.map (·.id)

end SemanticGraph

end Ail.Core
