import Ail.Core.SemanticGraph
import Ail.Core.Text
import Ail.Lib.Canonical
import Ail.Verify.Report

/-!
# Structural obligations of the type checker

The subpasses of `type_obligations.rs`, each a list of entries: one
function for what a pass says of one node or one edge, and the pass
itself over the whole graph.

Three passes look at the arguments of a call: by name, by the type
argument of a generic type, and against a structural or `Dyn`
requirement. All three pair the arguments with the parameters by `zip`.
-/

namespace Ail.Verify

open Ail.Core Lib VerificationEntry

/-! ## The context -/

variable (graph : SemanticGraph) (ctx : TypeContext)

/-- `TypeContext`. Of two nodes with one ref, or one name, the later
one is found. -/
structure TypeContext where
  byRef : AList fun _ : NodeRef => GraphNode
  byName : AList fun _ : String => NodeRef

namespace TypeContext

def collect : TypeContext :=
  { byRef := graph.nodes.foldl (fun map node => map.insert node.id node) ∅
    byName := graph.nodes.foldl (fun map node => map.insert node.name node.id) ∅ }

def getByName (name : String) : Option GraphNode :=
  (ctx.byName.lookup name).bind ctx.byRef.lookup

end TypeContext

/-! ## Nominal presence -/

variable (node : GraphNode)

def classifyNominalPresence : VerificationEntry :=
  match node.typeFacts with
  | none => { claim := "type-check", state := .unverified, scope := node.name }
  | some facts =>
    if facts.nominal = "" then { claim := "type-check", state := .unverified, scope := node.name }
    else if facts.generics.any (· = "") then
      rejected "type-check" node.name "E_GENERIC_ARITY: generic parameter name is empty"
    else { claim := "type-check", state := .proven, scope := node.name, blocking := true }

def checkNominalPresence : List VerificationEntry :=
  (graph.nodes.filter fun node => node.kind = .function ∨ node.kind = .type).map
    classifyNominalPresence

/-! ## Types as texts -/

/-- `split_generic`: `Base<Inner>` taken apart. -/
def splitGeneric (ty : List Char) : List Char × List Char :=
  match splitOnce '<' ty with
  | none => (ty, [])
  | some (base, rest) => (trimEnd base, trim (rest.rdropWhile (· = '>')))

/-- `dyn_interface`: the interface of `Dyn<Interface>`. -/
def dynInterface (ty : String) : Option String :=
  match (stripFront "Dyn<" ty.toList).bind (stripBack '>') with
  | none => none
  | some inner => if trim inner = [] then none else some (String.ofList (trim inner))

/-- `structural_fields`: the field names of `struct{a, b}`. -/
def structuralFields (ty : String) : Option (List String) :=
  match (stripFront "struct\x7b" ty.toList).bind (stripBack '\x7d') with
  | none => none
  | some body =>
    match ((splitAtChar ',' body).map trim).filter (· ≠ []) with
    | [] => none
    | fields => some (fields.map String.ofList)

/-- `structural_type_satisfies`: every required field is a field of the
argument type, a `struct` itself or a node that declares its fields among
its extra constraints. -/
def structuralTypeSatisfies (argTy : String) (required : List String) : Bool :=
  match structuralFields argTy with
  | some actual => required.all fun field => actual.any (· = field)
  | none =>
    match (ctx.getByName argTy).bind (·.constraintSet) with
    | none => false
    | some constraints =>
      required.all fun field => constraints.extras.any fun extra =>
        extra = field || stripFront "field:" extra.toList = some field.toList

/-- The node the type is named after implements the interface. -/
def implementsInterface (argTy interface : String) : Bool :=
  match (ctx.getByName argTy).bind (·.interfaceImpls) with
  | none => false
  | some impls => impls.any (·.interface = interface)

/-! ## Calls -/

/-- A call whose arguments can be checked: its target declares
parameters. -/
structure CallSite where
  args : List String
  callee : GraphNode
  params : List ParamDecl
  deriving DecidableEq

variable (edge : GraphEdge)

def callSite : Option CallSite :=
  if edge.kind ≠ .calls then none
  else
    match edge.callArgs, ctx.byRef.lookup edge.target with
    | some args, some callee => callee.params.map (⟨args, callee, ·⟩)
    | _, _ => none

variable (callee : GraphNode)

def callScope : String :=
  toString edge.source.val.toNat ++ "→" ++ callee.name

def argumentScope (i : Nat) : String :=
  callScope edge callee ++ "[" ++ toString i ++ "]"

/-- The entries of a check of single arguments, over the pairs of
argument type and parameter of the call. -/
def checkArguments (check : GraphNode → String → String → ParamDecl → List VerificationEntry) :
    List VerificationEntry :=
  match callSite ctx edge with
  | none => []
  | some site =>
    (site.args.zip site.params).zipIdx.flatMap fun (pair, i) =>
      check site.callee (argumentScope edge site.callee i) pair.1 pair.2

def nominalCallEntries (scope argTy : String) (param : ParamDecl) : List VerificationEntry :=
  if argTy = param.ty then [passed "nominal-call" scope]
  else
    [rejected "nominal-call" scope
      ("E_NOMINAL_MISMATCH: expected '" ++ param.ty ++ "', got '" ++ argTy ++ "' at param '" ++
        param.name ++ "' of '" ++ callee.name ++ "'")]

def checkNominalCalls : List VerificationEntry :=
  graph.edges.flatMap fun edge => checkArguments ctx edge nominalCallEntries

def varianceEntries (_callee : GraphNode) (scope argTy : String) (param : ParamDecl) :
    List VerificationEntry :=
  if !argTy.toList.contains '<' || !param.ty.toList.contains '<' then []
  else
    let (argBase, argInner) := splitGeneric argTy.toList
    let (paramBase, paramInner) := splitGeneric param.ty.toList
    if argBase ≠ paramBase then []
    else if argInner ≠ paramInner then
      [rejected "variance" scope
        ("E_VARIANCE_COERCION: implicit coercion from '" ++ argTy ++ "' to '" ++ param.ty ++
          "' violates invariance; use an explicit adapter/constraint instead")]
    else []

def checkVariance : List VerificationEntry :=
  graph.edges.flatMap fun edge => checkArguments ctx edge varianceEntries

def structuralEntries (scope argTy : String) (param : ParamDecl) : List VerificationEntry :=
  match structuralFields param.ty with
  | none => []
  | some required =>
    if structuralTypeSatisfies ctx argTy required then [passed "structural-type" scope]
    else
      [rejected "structural-type" scope
        ("E_STRUCTURAL_TYPE_MISMATCH: argument type '" ++ argTy ++
          "' does not satisfy structural requirement '" ++ param.ty ++ "'")]

def dynEntries (scope argTy : String) (param : ParamDecl) : List VerificationEntry :=
  match dynInterface param.ty with
  | none => []
  | some interface =>
    if implementsInterface ctx argTy interface then [passed "dyn-interface" scope]
    else
      [rejected "dyn-interface" scope
        ("E_DYN_INTERFACE_UNAVAILABLE: argument type '" ++ argTy ++ "' has no impl for Dyn<" ++
          interface ++ ">")]

def structuralAndDynEntries (_callee : GraphNode) (scope argTy : String) (param : ParamDecl) :
    List VerificationEntry :=
  structuralEntries ctx scope argTy param ++ dynEntries ctx scope argTy param

def checkStructuralAndDynCalls : List VerificationEntry :=
  graph.edges.flatMap fun edge => checkArguments ctx edge (structuralAndDynEntries ctx)

/-! ## Interface coherence -/

def associatedTypeEntries (impl : InterfaceImplMeta) (binding : AssociatedTypeBinding) :
    List VerificationEntry :=
  (if binding.name = "" then
    [rejected "coherence" node.name
      ("E_ASSOC_TYPE_MISMATCH: associated type binding has empty name in impl of '" ++
        impl.interface ++ "' on '" ++ node.name ++ "'")]
  else []) ++
  (if binding.ty = "" then
    [rejected "coherence" node.name
      ("E_ASSOC_TYPE_EMPTY_BINDING: associated type binding '" ++ binding.name ++
        "' has no concrete type in impl of '" ++ impl.interface ++ "' on '" ++ node.name ++
        "'; associated types must be explicit in the IR")]
  else [])

/-- The loop over the implementations of a node: `seen` holds the index
of the first implementation of each interface that is no adapter. -/
def coherenceEntries (node : GraphNode) :
    List (String × Nat) → List (InterfaceImplMeta × Nat) → List VerificationEntry
  | _, [] => []
  | seen, (impl, idx) :: rest =>
    impl.associatedTypes.flatMap (associatedTypeEntries node impl) ++
      if impl.isAdapter then coherenceEntries node seen rest
      else
        match seen.find? (·.1 = impl.interface) with
        | some (_, firstIdx) =>
          rejected "coherence" node.name
            ("E_COHERENCE_DUPLICATE: duplicate non-adapter implementation #" ++ toString idx ++
              " of '" ++ impl.interface ++ "' on '" ++ node.name ++ "' (first at #" ++
              toString firstIdx ++ "); ambiguous impl must fail deterministically") ::
            coherenceEntries node seen rest
        | none => coherenceEntries node ((impl.interface, idx) :: seen) rest

def checkInterfaceCoherence : List VerificationEntry :=
  graph.nodes.flatMap fun node => coherenceEntries node [] (node.interfaceImpls.getD []).zipIdx

/-! ## Constraints -/

/-- The constraints a collection puts on its first type argument. -/
structure CollectionConstraint where
  nominal : String
  needsEq : Bool
  needsHash : Bool
  needsOrd : Bool

def collectionConstraints : List CollectionConstraint :=
  [⟨"Set", true, true, false⟩, ⟨"Map", true, true, false⟩, ⟨"OrderedSet", true, false, true⟩,
    ⟨"OrderedMap", true, false, true⟩]

def emitConstraintCheckForScope (typeName scope : String) (needsEq needsHash needsOrd : Bool) :
    List VerificationEntry :=
  match ctx.getByName typeName with
  | none => []
  | some typeNode =>
    let lacks (needs : Bool) (has : ConstraintSet → Bool) (code constraint : String) :=
      if needs && !typeNode.constraintSet.elim false has then
        [code ++ ": type '" ++ typeName ++ "' requires " ++ constraint ++ " constraint"]
      else []
    match lacks needsEq (·.hasEq) "E_MISSING_EQ" "Eq" ++
        lacks needsHash (·.hasHash) "E_MISSING_HASH" "Hashable" ++
        lacks needsOrd (·.hasOrd) "E_MISSING_ORD" "Ord" with
    | [] => [passed "constraint-check" scope]
    | parts => [rejected "constraint-check" scope ("; ".intercalate parts)]

def collectionEntries : List VerificationEntry :=
  match node.typeFacts with
  | none => []
  | some facts =>
    match facts.generics, collectionConstraints.find? (·.nominal = facts.nominal) with
    | typeArg :: _, some needs =>
      emitConstraintCheckForScope ctx typeArg (node.name ++ "<" ++ typeArg ++ ">") needs.needsEq
        needs.needsHash needs.needsOrd
    | _, _ => []

/-- The generic parameters of the callee and the bindings a call gives
them. -/
def genericSite : Option (GraphNode × List GenericParamDecl × List TypeArgBinding) :=
  if edge.kind ≠ .calls then none
  else
    match edge.typeArgBindings, ctx.byRef.lookup edge.target with
    | some bindings, some callee => callee.genericParams.map (callee, ·, bindings)
    | _, _ => none

def bindingScope (binding : TypeArgBinding) : String :=
  callScope edge callee ++ "[" ++ binding.param ++ "=" ++ binding.ty ++ "]"

def instantiationEntries : List VerificationEntry :=
  match genericSite ctx edge with
  | none => []
  | some (callee, genericParams, bindings) =>
    bindings.flatMap fun binding =>
      match genericParams.find? (·.name = binding.param) with
      | none => []
      | some param =>
        if param.requiredConstraints.isEmpty then []
        else
          let needs (interface : String) := param.requiredConstraints.any (·.interface = interface)
          emitConstraintCheckForScope ctx binding.ty (bindingScope edge callee binding) (needs "Eq")
            (needs "Hashable") (needs "Ord")

def checkConstraints : List VerificationEntry :=
  graph.nodes.flatMap (collectionEntries ctx) ++ graph.edges.flatMap (instantiationEntries ctx)

/-! ## Blanket implementations -/

/-- The interfaces implemented without adapter, with the nodes that do
so, in the order of the nodes. -/
def nonAdapterImpls : List (String × String) :=
  graph.nodes.flatMap fun node =>
    ((node.interfaceImpls.getD []).filter (!·.isAdapter)).map
      fun impl => (impl.interface, node.name)

def overlapEntries (std : TextStd) (graph : SemanticGraph) : List VerificationEntry :=
  (orderedSet ((nonAdapterImpls graph).map (·.1))).flatMap fun interface =>
    let nodeNames := ((nonAdapterImpls graph).filter (·.1 = interface)).map (·.2)
    if nodeNames.length > 1 then
      [rejected "blanket-impl-coherence" (",".intercalate nodeNames)
        ("E_BLANKET_IMPL_OVERLAP: interface '" ++ interface ++
          "' has overlapping non-adapter impls on nodes " ++ std.debugStrings nodeNames ++
          "; blanket impl coherence violation")]
    else []

def orphanEntries : List VerificationEntry :=
  (nonAdapterImpls graph).flatMap fun (interface, nodeName) =>
    let owned := (ctx.getByName interface).elim false fun node =>
      node.kind = .interface || node.kind = .type
    if owned then []
    else
      [rejected "orphan-rule" nodeName
        ("E_ORPHAN_RULE_VIOLATION: node '" ++ nodeName ++ "' implements interface '" ++ interface ++
          "' (is_adapter=false) but neither an Interface nor a Type node named '" ++ interface ++
          "' exists in the graph; orphan rule requires the interface or type to be " ++
          "declared locally")]

def checkBlanketImplCoherence (std : TextStd) (graph : SemanticGraph) (ctx : TypeContext) :
    List VerificationEntry :=
  overlapEntries std graph ++ orphanEntries graph ctx

end Ail.Verify
