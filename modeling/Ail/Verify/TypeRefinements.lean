import Ail.Verify.TypeObligations

/-!
# Refinement, policy and boundary obligations of the type checker

The subpasses of `type_refinements/`: generic parameters, effects and
capabilities across calls, refinements, boundaries, and the policies on
absent and floating values.

Type inference follows the `else` branches of a body; each step shortens
the text, so its length bounds them.
-/

namespace Ail.Verify

open Ail.Core Lib VerificationEntry List

/-! ## Helpers -/

section Inference

variable (ctx : TypeContext)

/-- The text of the `else` branch that `infer_if_expr_type` goes on with. -/
def elseBranch (body : List Char) : Option (List Char) :=
  match splitOnceText "else".toList body with
  | none => none
  | some (_, rest) =>
    let after := trim rest
    some (((stripFront "\x7b" after).bind (stripBack '\x7d')).elim after trim)

/-- `infer_expr_type` and `infer_if_expr_type`. -/
def inferExprType : Nat → List Char → Option String
  | 0, _ => none
  | fuel + 1, body =>
    if (i64FromStr body).isSome then some "Int"
    else if body = "true".toList ∨ body = "false".toList then some "Bool"
    else
      let conditional := startsWith (String.ofList body) "if " ||
        startsWith (String.ofList body) "if("
      match if conditional then (elseBranch body).bind (inferExprType fuel) else none with
      | some inferred => some inferred
      | none =>
        let callee := trim (body.takeWhile fun c => c ≠ '(' && !isWhitespace c)
        if callee = [] then none
        else (ctx.getByName (String.ofList callee)).bind (·.returnType)

theorem elseBranch_length_lt {body rest : List Char} (hbranch : elseBranch body = some rest) :
    rest.length < body.length := by
  unfold elseBranch at hbranch
  split at hbranch
  next => exact nomatch hbranch
  next before after hparts =>
    have hbody := congrArg List.length (eq_of_splitOnceText hparts)
    have hafter := length_trim_le after
    have hrest : rest.length ≤ (trim after).length := by
      rw [← Option.some.inj hbranch]
      cases hinner : (stripFront "\x7b" (trim after)).bind (stripBack '\x7d') with
      | none => exact le_rfl
      | some inner =>
        obtain ⟨middle, hfront, hback⟩ := Option.bind_eq_some_iff.1 hinner
        have hcons := isPrefixOf?_eq_some_iff_append_eq.1 hfront
        unfold stripBack at hback
        split at hback
        · rw [← Option.some.inj hback]
          have hlength := congrArg List.length hcons
          have hdrop := length_trim_le middle.dropLast
          simp only [length_append, length_dropLast, Option.elim_some] at *
          omega
        · cases hback
    simp only [length_append] at hbody
    have helse : "else".toList.length = 4 := rfl
    omega

/-- The length of the text is fuel enough. -/
theorem inferExprType_of_lt {fuel fuel' : Nat} {body : List Char} (hfuel : body.length < fuel)
    (hfuel' : body.length < fuel') : inferExprType ctx fuel body =
      inferExprType ctx fuel' body := by
  induction fuel generalizing fuel' body with
  | zero => omega
  | succ fuel ih =>
    cases fuel' with
    | zero => omega
    | succ fuel' =>
      have hbranch : (elseBranch body).bind (inferExprType ctx fuel) =
          (elseBranch body).bind (inferExprType ctx fuel') := by
        cases hrest : elseBranch body with
        | none => rfl
        | some rest =>
          have hlt := elseBranch_length_lt hrest
          exact ih (by omega) (by omega)
      rw [inferExprType, inferExprType, hbranch]

/-- `infer_local_types`: the functions without a declared return type for
which one is inferred. -/
def inferLocalTypes (graph : SemanticGraph) : List NodeRef :=
  (graph.nodes.filter fun node => node.kind = .function && node.returnType.isNone &&
    node.bodyExpr.elim false fun body =>
      (inferExprType ctx (body.length + 1) (trim body.toList)).isSome).map (·.id)

end Inference

variable (tables : CharTables)

def isSimpleIdentifier (name : String) : Bool :=
  name ≠ "" && name.toList.all fun c => tables.isAlphanumeric c || c == '_'

def isConstParamValue (ty : String) : Bool :=
  if ty = "" then false
  else if ty.toList.all Char.isDigit then true
  else isSimpleIdentifier tables ty

/-- `split_assoc_type`: `Interface::Name` taken apart. -/
def splitAssocType (ty : String) : String × String :=
  match splitOnceText "::".toList ty.toList with
  | none => (ty, "")
  | some (interface, name) => (String.ofList interface, String.ofList name)

def resolveAssocType (ctx : TypeContext) (argTy interfaceBase assocName : String) :
    Option String :=
  ((ctx.getByName argTy).bind (·.interfaceImpls)).bind fun impls =>
    impls.findSome? fun impl =>
      if startsWith impl.interface interfaceBase then
        (impl.associatedTypes.find? (·.name = assocName)).map (·.ty)
      else none

/-! ## Generic parameters -/

variable (node : GraphNode)

def genericParamEntry (param : GenericParamDecl) : VerificationEntry :=
  let scope := node.name ++ "::" ++ param.name
  let judged (holds : Bool) (evidence : String) : VerificationEntry :=
    if holds then passed "generic-param-kind" scope
    else { claim := "generic-param-kind", state := .failed, scope, evidence := some evidence }
  if param.name = "" then
    rejected "generic-param-kind" scope
      ("E_GENERIC_ARITY: generic parameter name is empty on node '" ++ node.name ++ "'")
  else
    match param.kind with
    | .effectParam =>
      judged (node.effectRow.elim false (·.effects.any (· = param.name)))
        ("E_EFFECT_PARAM_WIDENED: EffectParam '" ++ param.name ++
          "' not found in effect_row of '" ++
          node.name ++ "'; effect precision would be silently widened")
    | .capabilityParam =>
      judged (node.capabilityReqs.elim false (·.caps.any (· = param.name)))
        ("E_CAPABILITY_PARAM_WIDENED: CapabilityParam '" ++ param.name ++
          "' not found in capability_reqs of '" ++ node.name ++
          "'; capability precision would be silently widened")
    | .typeParam => passed "generic-param-kind" scope
    | .constParam =>
      judged (isSimpleIdentifier tables param.name)
        ("E_CONST_PARAM_UNDECIDABLE: ConstParam '" ++ param.name ++
          "' contains a complex expression; only simple decidable identifiers are permitted")

def checkGenericParams (graph : SemanticGraph) : List VerificationEntry :=
  graph.nodes.flatMap fun node => (node.genericParams.getD []).map (genericParamEntry tables node)

def isConstParam (genericParams : List GenericParamDecl) (binding : TypeArgBinding) : Bool :=
  genericParams.any fun param => param.name = binding.param && param.kind = .constParam

def genericCallBindingEntries (ctx : TypeContext) (edge : GraphEdge) : List VerificationEntry :=
  match genericSite ctx edge with
  | none => []
  | some (callee, genericParams, bindings) =>
    let declared := (genericParams.filter (·.kind = .typeParam)).map (·.name)
    let typeBindings := bindings.filter (!isConstParam genericParams ·)
    let scope := callScope edge callee
    match typeBindings.find? fun binding => !declared.any (· = binding.param) with
    | some binding =>
      [rejected "generic-call-binding" scope
        ("E_GENERIC_BINDING_ARITY: call binds unknown generic '" ++ binding.param ++ "' on '" ++
          callee.name ++ "'")]
    | none =>
      if typeBindings.length ≠ declared.length then
        [rejected "generic-call-binding" scope
          ("E_GENERIC_BINDING_ARITY: '" ++ callee.name ++ "' expects " ++
            toString declared.length ++
            " type generic bindings, got " ++ toString typeBindings.length)]
      else if typeBindings.isEmpty then []
      else [passed "generic-call-binding" scope]

def checkGenericCallBindings (graph : SemanticGraph) (ctx : TypeContext) :
    List VerificationEntry :=
  graph.edges.flatMap (genericCallBindingEntries ctx)

def constParamEntries (ctx : TypeContext) (edge : GraphEdge) : List VerificationEntry :=
  match genericSite ctx edge with
  | none => []
  | some (callee, genericParams, bindings) =>
    (bindings.filter (isConstParam genericParams)).map fun binding =>
      let scope := bindingScope edge callee binding
      if isConstParamValue tables binding.ty then passed "const-param-value" scope
      else
        rejected "const-param-value" scope
          ("E_CONST_PARAM_VALUE_INVALID: ConstParam '" ++ binding.param ++ "' on '" ++
            callee.name ++
            "' bound to '" ++ binding.ty ++ "' which is not a decidable literal; " ++
            "only numeric strings or simple identifiers are permitted")

def checkConstParamCallBindings (graph : SemanticGraph) (ctx : TypeContext) :
    List VerificationEntry :=
  graph.edges.flatMap (constParamEntries tables ctx)

/-! ## Effects and capabilities -/

/-- `effect_issue_evidence`: what is missing is counted, not named. -/
def effectIssueEvidence (code category reason kind : String) (count : Nat) : String :=
  code ++ ": category=" ++ category ++ "; type-category=effect; reason=" ++ reason ++ "; count=" ++
    toString count ++ "; descriptors=[" ++
    ", ".intercalate ((List.range count).map fun index => kind ++ "#" ++ toString index) ++ "]"

def effectClaimRank (claim : String) : Nat :=
  if claim = "effect-propagation" then 0
  else if claim = "capability-propagation" then 1
  else if claim = "effect-param-threading" then 2
  else if claim = "capability-param-threading" then 3
  else 9

/-- The order in which several checkers sort their entries: by the rank
of the claim, then field by field. -/
def cmpEntries (rank : String → Nat) (a b : VerificationEntry) : Ordering :=
  (compare (rank a.claim) (rank b.claim)).then <|
    (compare a.scope b.scope).then <|
    (compare a.state.priority b.state.priority).then <|
    (compare a.evidence b.evidence).then <|
    compare a.repairOptions b.repairOptions

/-- The entries sorted, exact repetitions dropped. -/
def normalizeEntries (rank : String → Nat) (entries : List VerificationEntry) :
    List VerificationEntry :=
  dedupAdjacent (entries.insertionSort fun a b => (cmpEntries rank a b).isLE)

variable {entries : List VerificationEntry} {rank : String → Nat}

theorem mem_normalizeEntries {entry : VerificationEntry} : entry ∈ normalizeEntries rank entries ↔
    entry ∈ entries := by
  rw [normalizeEntries, mem_dedupAdjacent, mem_insertionSort]

@[simp] theorem noneFailed_normalizeEntries :
    NoneFailed (normalizeEntries rank entries) ↔ NoneFailed entries := by
  simp [NoneFailed, mem_normalizeEntries]

def normalizeEffectEntries : List VerificationEntry → List VerificationEntry :=
  normalizeEntries effectClaimRank

/-- Caller and callee of a call. -/
def callEnds (ctx : TypeContext) (edge : GraphEdge) : Option (GraphNode × GraphNode) :=
  if edge.kind ≠ .calls then none
  else (ctx.byRef.lookup edge.source).bind fun caller =>
    (ctx.byRef.lookup edge.target).map (caller, ·)

def effectsOf : List String := node.effectRow.elim [] (·.effects)

def capsOf : List String := node.capabilityReqs.elim [] (·.caps)

/-- What `needed` has and `available` lacks, each once. -/
def missing (needed available : List String) : List String :=
  (orderedSet needed).filter (!available.contains ·)

/-- One kind of thing that a callee needs and its caller must have. -/
def propagationEntries (claim scope code category reason kind : String)
    (needed : Option (List String)) (available : List String) : List VerificationEntry :=
  match needed with
  | none => []
  | some needed =>
    let lacking := missing needed available
    if lacking ≠ [] then
      [rejected claim scope (effectIssueEvidence code category reason kind lacking.length)]
    else if needed ≠ [] then [passed claim scope]
    else []

def callPropagationEntries (ctx : TypeContext) (edge : GraphEdge) : List VerificationEntry :=
  match callEnds ctx edge with
  | none => []
  | some (caller, callee) =>
    let scope := caller.name ++ "→" ++ callee.name
    propagationEntries "effect-propagation" scope "E_EFFECT_NOT_PROPAGATED" "effect.missing"
        "callee effect(s) missing from caller effect_row" "effect"
        (callee.effectRow.map (·.effects)) (effectsOf caller) ++
      propagationEntries "capability-propagation" scope "E_CAPABILITY_NOT_PROPAGATED"
        "capability.missing" "callee capability requirement(s) missing from caller capability_reqs"
        "capability" (callee.capabilityReqs.map (·.caps)) (capsOf caller)

def checkEffectCapabilityPropagation (graph : SemanticGraph) (ctx : TypeContext) :
    List VerificationEntry :=
  normalizeEffectEntries (graph.edges.flatMap (callPropagationEntries ctx))

/-- One kind of thing that the bindings of a call name and its caller
must have. A call that binds none of them passes. -/
def threadingEntries (claim scope code category reason kind : String)
    (bound : Option (List String)) (available : List String) : List VerificationEntry :=
  match bound with
  | none => []
  | some bound =>
    let lacking := missing bound available
    if lacking = [] then [passed claim scope]
    else [rejected claim scope (effectIssueEvidence code category reason kind lacking.length)]

def callThreadingEntries (ctx : TypeContext) (edge : GraphEdge) : List VerificationEntry :=
  match callEnds ctx edge with
  | none => []
  | some (caller, callee) =>
    let scope := caller.name ++ "→" ++ callee.name
    threadingEntries "effect-param-threading" scope "E_EFFECT_PARAM_NOT_THREADED" "effect.missing"
        "call-site EffectParam binding references effect(s) absent from caller effect_row" "effect"
        (edge.effectArgBindings.map (·.flatMap (·.effects))) (effectsOf caller) ++
      threadingEntries "capability-param-threading" scope "E_CAPABILITY_PARAM_NOT_THREADED"
        "capability.missing"
        ("call-site CapabilityParam binding references capability requirement(s) " ++
          "absent from caller capability_reqs")
        "capability" (edge.capabilityArgBindings.map (·.flatMap (·.caps))) (capsOf caller)

def checkEffectCapabilityParamThreading (graph : SemanticGraph) (ctx : TypeContext) :
    List VerificationEntry :=
  normalizeEffectEntries (graph.edges.flatMap (callThreadingEntries ctx))

/-! ## Refinements and associated types -/

def refinementState : RefinementStatus → VerificationState
  | .proven => .proven
  | .runtimeChecked => .runtimeChecked
  | .assumed => .assumed
  | .unverified => .unverified
  | .failed => .failed

/-- State and evidence of a refinement. A declared proof must be the
literal `true` or repeat an `ensures` clause, a runtime check must exist. -/
def judgeRefinement (refinement : RefinementRef) : VerificationState × String :=
  let declared := (refinementState refinement.status,
    "predicate: '" ++ refinement.predicate ++ "'; base: '" ++ refinement.baseType ++ "'")
  match refinement.status with
  | .proven =>
    let predicate := trim refinement.predicate.toList
    if predicate = "true".toList then declared
    else if predicate = "false".toList ∨ predicate = [] then
      (.failed, "E_REFINEMENT_PROOF_UNDISCHARGED: proven refinement '" ++ refinement.predicate ++
        "' cannot be discharged locally")
    else if node.contractClauses.elim false (·.ensures.any fun p => trim p.toList = predicate) then
      declared
    else
      (.unverified, "E_REFINEMENT_PROOF_UNDISCHARGED: refinement '" ++ refinement.predicate ++
        "' has no matching ensures clause or literal proof")
  | .runtimeChecked =>
    if node.runtimeChecks.getD [] = [] then
      (.failed, "E_REFINEMENT_RUNTIME_CHECK_MISSING: runtime-checked refinement '" ++
        refinement.predicate ++ "' has no materialized runtime check")
    else declared
  | _ => declared

def refinementEntries : List VerificationEntry :=
  match node.refinementRef with
  | none => []
  | some refinement =>
    let (state, evidence) := judgeRefinement node refinement
    { claim := "refinement", state, scope := node.name, evidence := some evidence } ::
      if refinement.erased then
        [{ claim := "refinement-erasure", state := .assumed, scope := node.name
           evidence := some ("E_REFINEMENT_ERASURE: refinement '" ++ refinement.predicate ++
             "' erased to base type '" ++ refinement.baseType ++
             "'; erasure is explicit and tracked") }]
      else []

variable (graph : SemanticGraph)

def checkRefinementObligations : List VerificationEntry :=
  graph.nodes.flatMap refinementEntries

variable (std : TextStd)

def associatedTypeResolution (ctx : TypeContext) (edge : GraphEdge) : List VerificationEntry :=
  if edge.kind ≠ .calls then []
  else
    match edge.callArgs, ctx.byRef.lookup edge.target with
    | some callArgs, some callee =>
      match callee.returnType with
      | none => []
      | some returnType =>
        if (splitOnceText "::".toList returnType.toList).isNone then []
        else
          let (interfaceBase, assocName) := splitAssocType returnType
          let entry (state : VerificationState) (evidence : String) : VerificationEntry :=
            { claim := "assoc-type-resolution", state, scope := callScope edge callee
              evidence := some evidence }
          match callArgs.findSome? (resolveAssocType ctx · interfaceBase assocName) with
          | some concreteTy =>
            [entry .proven ("resolved '" ++ returnType ++ "' → '" ++ concreteTy ++ "'")]
          | none =>
            [entry .unverified ("E_ASSOC_TYPE_NOT_RESOLVED: associated type '" ++ returnType ++
              "' on callee '" ++ callee.name ++ "' could not be resolved from call_args " ++
              std.debugStrings callArgs)]
    | _, _ => []

def checkAssociatedTypeResolution (graph : SemanticGraph) (ctx : TypeContext) :
    List VerificationEntry :=
  graph.edges.flatMap (associatedTypeResolution std ctx)

/-! ## Boundaries -/

def materializationEntries (inferredReturns : List NodeRef) (node : GraphNode) :
    List VerificationEntry :=
  if node.kind ≠ .function ∨ node.params.getD [] = [] then []
  else if node.returnType.isSome || inferredReturns.contains node.id then
    [passed "boundary-materialization" node.name]
  else
    [{ claim := "boundary-materialization", state := .unverified, scope := node.name
       evidence := some ("E_BOUNDARY_NOT_MATERIALIZED: function '" ++ node.name ++
         "' declares params but has no return_type; boundary signature is not fully " ++
         "materialized in the canonical graph") }]

def checkBoundaryMaterialization (inferredReturns : List NodeRef) : List VerificationEntry :=
  graph.nodes.flatMap (materializationEntries inferredReturns)

def boundaryInferenceEntries : List VerificationEntry :=
  if node.kind ≠ .function then []
  else
    (node.inferred.filter (·.kind = "boundary")).flatMap fun fact =>
      match stripFront "return:" fact.value.toList with
      | none => []
      | some claimed =>
        let declared := node.returnType.getD ""
        if claimed = declared.toList then [passed "boundary-inference" node.name]
        else
          [rejected "boundary-inference" node.name
            ("E_BOUNDARY_INFERENCE_MISMATCH: boundary inferred return type '" ++
              String.ofList claimed ++ "' does not match declared return_type '" ++ declared ++
              "' on '" ++ node.name ++ "'")]

def checkBoundaryInference : List VerificationEntry :=
  graph.nodes.flatMap boundaryInferenceEntries

def boundarySchemaEntries : List VerificationEntry :=
  match node.returnType with
  | none => []
  | some returnType =>
    if node.kind ≠ .function ∨ !startsWith returnType "ForeignType" then []
    else if node.inferred.any (·.kind = "boundary-schema") then [passed "boundary-schema" node.name]
    else
      [rejected "boundary-schema" node.name
        ("E_FOREIGN_TYPE_NO_SCHEMA: function '" ++ node.name ++ "' returns a ForeignType ('" ++
          returnType ++ "') but has no 'boundary-schema' inferred fact; " ++
          "foreign values crossing boundaries must declare a serialization schema")]

def checkBoundarySchema : List VerificationEntry :=
  graph.nodes.flatMap boundarySchemaEntries

/-! ## Absent and floating values -/

def nullWords : List String := ["null", "nil", "undefined", "void"]

def nullPolicyEntries (node : GraphNode) : List VerificationEntry :=
  match node.returnType with
  | none => []
  | some returnType =>
    if nullWords.contains (std.toLowercase returnType) then
      [rejected "null-policy" node.name
        ("E_NULL_IN_CORE_IR: return_type '" ++ returnType ++ "' of '" ++ node.name ++
          "' is a null/nil sentinel; Core IR prohibits null — use Option<T>, Result<T,E>, " ++
          "or PatchField<T>")]
    else []

def checkNullPolicy (graph : SemanticGraph) : List VerificationEntry :=
  graph.nodes.flatMap (nullPolicyEntries std)

def floatPolicyEntries : List VerificationEntry :=
  match node.typeFacts, node.constraintSet with
  | some facts, some constraints =>
    if facts.nominal ≠ "Float" then []
    else
      (if constraints.hasEq then
        [rejected "float-policy" node.name
          ("E_FLOAT_EQ_IMPLICIT: Float type '" ++ node.name ++ "' declares has_eq=true; " ++
            "Float equality must be explicit (approximately_equal, bitwise_equal, " ++
            "or a domain-specific comparator) — not implicit `==`")]
      else []) ++
      (if constraints.hasOrd then
        [rejected "float-policy" node.name
          ("E_FLOAT_ORD_IMPLICIT: Float type '" ++ node.name ++ "' declares has_ord=true; " ++
            "Float has no default total order (NaN breaks totality) — " ++
            "use NonNaNFloat or an explicit comparator/wrapper instead")]
      else [])
  | _, _ => []

def checkFloatPolicy : List VerificationEntry :=
  graph.nodes.flatMap floatPolicyEntries

def patchfieldEntries : List VerificationEntry :=
  match node.returnType with
  | none => []
  | some returnType =>
    if !startsWith returnType "PatchField<" then []
    else if (splitGeneric returnType.toList).2 = [] then
      [rejected "patchfield" node.name
        ("E_PATCHFIELD_EMPTY_INNER: PatchField on '" ++ node.name ++ "' has no inner type; " ++
          "Core IR requires PatchField<T> where T is a non-empty concrete type")]
    else [passed "patchfield" node.name]

def checkPatchfield : List VerificationEntry :=
  graph.nodes.flatMap patchfieldEntries

def partialOrdEntries : List VerificationEntry :=
  match node.constraintSet, node.returnType with
  | some constraints, some returnType =>
    if !constraints.hasPartialOrd then []
    else if startsWith returnType "PartialOrd<" then [passed "partial-ord" node.name]
    else if !constraints.hasOrd then
      [{ claim := "partial-ord", state := .unverified, scope := node.name
         evidence := some ("E_PARTIAL_ORD_REQUIRED: type '" ++ node.name ++
           "' has has_partial_ord=true but lacks has_ord=true; in a total-order context only " ++
           "partial ordering is available, which may be insufficient") }]
    else []
  | _, _ => []

def checkPartialOrd : List VerificationEntry :=
  graph.nodes.flatMap partialOrdEntries

end Ail.Verify
