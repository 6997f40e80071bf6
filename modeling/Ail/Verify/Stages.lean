import Ail.Change.Model
import Ail.Lib.Worklist
import Ail.Verify.Policy

/-!
# The stages of the pipeline

The stages that belong to the pipeline itself: on the submitted changeset
(3 to 5), on the graph (6, 10, 12, 19 to 21), on the approval records
(18) and on generated artifacts (22). Stages with several entries per
item are given as a function of the item.

Stage 20 scans bodies and can panic; `checkAnfOrderingOf_ok_iff` says when
it returns.
-/

namespace Ail.Verify

open Ail.Core Lib Change List

/-! ## Stage 3: op schemas -/

def knownPrimitives : List String :=
  ["Int", "String", "Bool", "Float", "Decimal", "Money", "Email"]

def requiredArgs (kind : ChangeSetOp) (verb : String) : List String :=
  match kind with
  | .create =>
    if verb ∈ ["create_module", "create_type", "create_function", "create_capability"] then ["id"]
    else []
  | .set =>
    if verb = "set_return" then ["target", "type"]
    else if verb = "set_body" then ["target", "body"]
    else []
  | .add =>
    if verb = "add_param" then ["target", "name", "type"]
    else if verb = "add_effect" then ["target", "effect"]
    else if verb = "add_contract" then ["target", "kind", "rule"]
    else []
  | .remove =>
    if verb = "remove_effect" then ["target", "effect"]
    else if verb = "remove_contract" then ["target", "rule"]
    else []
  | .connect | .disconnect => ["source", "target"]
  | .rename => ["target", "name"]
  | .move => ["target", "to"]
  | .delete => ["target"]
  | .bind => ["capability", "handler"]
  | .grant | .revoke => ["target", "capability"]
  | .expose | .hide => ["target"]
  | .infer | .derive | .generate | .assert | .lock | .refactor | .migrate | .approve | .reject
  | .deprecate | .annotate | .verify => ["target"]
  | .replace => []

/-- `Package.Type`: segments of letters, digits and underscores. -/
def isQualifiedType (tables : CharTables) (ty : String) : Bool :=
  ty.toList.contains '.' && (splitAtChar '.' ty.toList).all fun segment =>
    segment ≠ [] && segment.all fun c => tables.isAlphanumeric c || c == '_'

/-- What is wrong with the arguments of an op. -/
def opSchemaIssue (tables : CharTables) (graph : SemanticGraph) (op : CanonicalOp) :
    Option String :=
  let missing := (requiredArgs op.kind op.verb).filter fun key => (op.args.lookup key).isNone
  if missing ≠ [] then
    some ("E_OP_SCHEMA: missing required args: " ++ ", ".intercalate missing)
  else
    let version := (op.args.lookup "version").bind fun text => do
      let v ← u32FromStr text.toList
      if 1 < v then
        some ("E_OP_VERSION_INCOMPATIBLE: op version " ++ toString v ++
          " exceeds current schema version 1")
      else none
    let type := (op.args.lookup "type").bind fun ty =>
      if ty ∈ knownPrimitives ∨ ty ∈ graph.nodes.map (·.name) ∨ isQualifiedType tables ty ∨
          ty = "" then none
      else
        some ("E_OP_ARG_TYPE_INVALID: type '" ++ ty ++ "' is not a known primitive, graph node " ++
          "name, or qualified external type")
    let effect := (op.args.lookup "effect").bind fun effect =>
      if effect.toList.contains ':' then none
      else
        some ("E_OP_ARG_EFFECT_MALFORMED: effect '" ++ effect ++ "' must follow 'name:Provider' " ++
          "pattern (missing ':')")
    version.or (type.or effect)

def validateOpSchemas (tables : CharTables) (canonical : Option CanonicalChangeSet)
    (graph : SemanticGraph) : List VerificationEntry :=
  match canonical with
  | none =>
    [stageEntry "03-validate-op-schemas" .unverified "changeset.ops"
      (some "canonical change unavailable")]
  | some canonical =>
    if canonical.ops = [] then
      [stageEntry "03-validate-op-schemas" .proven "changeset.ops"
        (some "identity changeset has no ops")]
    else
      canonical.ops.zipIdx.map fun (op, idx) =>
        let scope := "op[" ++ toString idx ++ "]:" ++ op.verb
        match opSchemaIssue tables graph op with
        | some issue => stageEntry "03-validate-op-schemas" .failed scope (some issue)
        | none => stageEntry "03-validate-op-schemas" .proven scope none

/-! ## Stage 4: references -/

def isValid64CharHex (text : String) : Bool :=
  text.toList.length = 64 && text.toList.all fun c =>
    c.isDigit || ('a' ≤ c && c ≤ 'f') || ('A' ≤ c && c ≤ 'F')

def snapshotHashEntry (op : CanonicalOp) (idx : Nat) (key : String) : Option VerificationEntry :=
  (op.args.lookup key).map fun hash =>
    let scope := "op[" ++ toString idx ++ "]." ++ key
    if isValid64CharHex hash then
      stageEntry "04-resolve-graph-references" .proven scope
        (some (key ++ " is a valid 64-char hex hash"))
    else
      stageEntry "04-resolve-graph-references" .failed scope
        (some ("E_STALE_CONTEXT: " ++ key ++ " '" ++ hash ++
          "' is not a valid 64-char hex snapshot hash"))

def OpPayload.createsNode : OpPayload → Bool
  | .createNode _ => true
  | _ => false

variable (graph : SemanticGraph)

def referenceEntry (op : CanonicalOp) (idx : Nat) (key : String) : Option VerificationEntry :=
  if key = "to" ∧ (op.kind = .move ∨ op.kind = .migrate) then none
  else
    (op.args.lookup key).map fun value =>
      let scope := "op[" ++ toString idx ++ "]." ++ key
      if (key = "target" ∧ OpPayload.createsNode op.payload) ∨ value ∈ graph.nodes.map (·.name) then
        stageEntry "04-resolve-graph-references" .proven scope none
      else
        stageEntry "04-resolve-graph-references" .failed scope
          (some ("E_GRAPH_REF_UNRESOLVED: '" ++ value ++ "' does not exist in target graph"))

def resolveGraphReferences (canonical : Option CanonicalChangeSet) (graph : SemanticGraph) :
    List VerificationEntry :=
  match canonical with
  | none =>
    [stageEntry "04-resolve-graph-references" .unverified "changeset.refs"
      (some "canonical change unavailable")]
  | some canonical =>
    let entries := canonical.ops.zipIdx.flatMap fun (op, idx) =>
      ["base_hash", "snapshot_hash"].filterMap (snapshotHashEntry op idx) ++
        ["target", "source", "from", "to", "capability", "handler"].filterMap
          (referenceEntry graph op idx)
    if entries = [] then
      [stageEntry "04-resolve-graph-references" .proven "changeset.refs"
        (some "no graph references to resolve")]
    else entries

/-! ## Stage 5: the semantic diff -/

def nodeNames : List String := orderedSet (graph.nodes.map (·.name))

variable (base : SemanticGraph)

/-- A node of the base with that name is the source of a `DependsOn` edge. -/
def hadDependents (name : String) : Bool :=
  base.edges.any fun edge =>
    edge.kind = .dependsOn && base.nodes.any fun node => node.name = name && node.id = edge.source

def differsIn (before after : GraphNode) : Bool :=
  before.typeFacts ≠ after.typeFacts || before.effectRow ≠ after.effectRow

variable (target : SemanticGraph)

def changedEntry (name : String) : Option VerificationEntry := do
  let before ← base.nodes.find? (·.name = name)
  let after ← target.nodes.find? (·.name = name)
  if differsIn before after then
    some (stageEntry "05-build-semantic-diff" .unverified name
      (some ("node '" ++ name ++ "' type_facts or effect_row changed; verify compatibility")))
  else none

def buildSemanticDiff (base : Option SemanticGraph) (target : SemanticGraph) :
    List VerificationEntry :=
  match base with
  | none =>
    [stageEntry "05-build-semantic-diff" .unverified "semantic_diff"
      (some "base graph snapshot not provided")]
  | some base =>
    let added := ((nodeNames target).filter (· ∉ nodeNames base)).map fun name =>
      stageEntry "05-build-semantic-diff" .proven name
        (some ("node '" ++ name ++ "' added in this changeset"))
    let removed := ((nodeNames base).filter (· ∉ nodeNames target)).map fun name =>
      stageEntry "05-build-semantic-diff" .unverified name
        (some (if hadDependents base name then
          "E_PUBLIC_API_CHANGED: node '" ++ name ++ "' removed; had dependent edges"
        else "node '" ++ name ++ "' removed from graph; verify no references remain"))
    let changed := ((nodeNames base).filter (· ∈ nodeNames target)).filterMap
      (changedEntry base target)
    match added ++ removed ++ changed with
    | [] =>
      [stageEntry "05-build-semantic-diff" .proven "semantic_diff"
        (some "no structural changes detected")]
    | entries => entries

/-! ## Stage 6: lowering -/

def lowerCoreIr : VerificationEntry :=
  match graph.validate with
  | .ok () =>
    stageEntry "06-lower-affected-graph-to-core-ir" .proven "core_ir"
      (some (toString graph.nodes.length ++ " graph nodes lowered"))
  | .error err =>
    stageEntry "06-lower-affected-graph-to-core-ir" .failed "core_ir"
      (some ("E_CORE_IR_LOWERING: graph validation failed: " ++ err.debug))

/-! ## Stage 10: refinements -/

def checkedRefinementState (solver : Solver) (node : GraphNode) (refinement : RefinementRef) :
    VerificationState :=
  let predicate := trim refinement.predicate.toList
  if predicate = [] ∨ predicate = "false".toList then .failed
  else
    match refinement.status with
    | .proven => .proven
    | .runtimeChecked => if node.runtimeChecks.getD [] ≠ [] then .runtimeChecked else .failed
    | .assumed => .assumed
    | .unverified =>
      match solver.solve ⟨refinement.predicate, .requires, node.name⟩ with
      | .proven => .proven
      | .assumed _ | .unsupported => .assumed
    | .failed => .failed

def checkRefinements (solver : Solver) : List VerificationEntry :=
  let entries := graph.nodes.filterMap fun node => node.refinementRef.map fun refinement =>
    stageEntry "10-check-refinements" (checkedRefinementState solver node refinement) node.name
      (some (refinement.baseType ++ " -> " ++ refinement.predicate))
  if entries = [] then
    [stageEntry "10-check-refinements" .proven "refinements" (some "no refinement refs present")]
  else entries

/-! ## Stage 12: invariants -/

/-- The refs of the target's nodes that are new or differ from the base. -/
def changedRefs : List NodeRef :=
  (target.nodes.filter fun node =>
    match base.nodes.reverse.find? (·.name = node.name) with
    | none => true
    | some before => differsIn before node).map (·.id)

/-- The refs joined to the given one by edges of any kind and direction. -/
def reachableFrom (ref : NodeRef) : List NodeRef :=
  saturate (fun cur => graph.edges.flatMap fun edge =>
      (if edge.source = cur then [edge.target] else []) ++
        if edge.target = cur then [edge.source] else [])
    (2 * graph.edges.length + 1) [ref] [ref]

/-- The refs from which a path of `BreaksIfChanged` edges leads to the
given one, which comes first. -/
def breaksIfChanged (ref : NodeRef) : List NodeRef :=
  saturate (fun cur => graph.edges.flatMap fun edge =>
      if edge.kind = .breaksIfChanged ∧ edge.target = cur then [edge.source] else [])
    (graph.edges.length + 1) [ref] [ref]

/-- The changed nodes an invariant depends on without saying so, in the
order of their refs. -/
def uncoveredChanges (invariant : NodeRef) : List String :=
  let changed := (changedRefs base target).dedup.insertionSort fun a b => a.val ≤ b.val
  ((changed.filter fun ref => ref ≠ invariant ∧ ref ∈ reachableFrom target invariant).filter
    (· ∉ breaksIfChanged target invariant)).filterMap fun ref =>
      (target.nodes.find? (·.id = ref)).map (·.name)

def invariantEntry (node : GraphNode) : VerificationEntry :=
  match uncoveredChanges base target node.id with
  | [] => stageEntry "12-check-invariants-via-impact-analysis" .proven node.name none
  | uncovered =>
    stageEntry "12-check-invariants-via-impact-analysis" .unverified node.name
      (some ("invariant impacted by changes in: " ++ ", ".intercalate uncovered))

def checkInvariants (base : Option SemanticGraph) (target : SemanticGraph) :
    List VerificationEntry :=
  match target.nodes.filter (·.kind = .invariant), base with
  | [], _ =>
    [stageEntry "12-check-invariants-via-impact-analysis" .proven "invariants"
      (some "no invariant nodes present")]
  | invariants, none =>
    invariants.map fun node =>
      stageEntry "12-check-invariants-via-impact-analysis" .unverified node.name
        (some "no base graph snapshot provided; cannot assess impact")
  | invariants, some base => invariants.map (invariantEntry base target)

/-! ## Stage 18: approval records -/

def approvalComplete (approval : ApprovalRecord) : Bool :=
  !isBlank approval.scope && !isBlank approval.approver && !isBlank approval.reason

def checkApprovalRecords (approvals : List ApprovalRecord) : List VerificationEntry :=
  if approvals = [] then
    [stageEntry "18-check-approval-records" .proven "approvals"
      (some "no approval records required by input")]
  else
    approvals.map fun approval =>
      if approvalComplete approval then
        stageEntry "18-check-approval-records" .proven approval.scope none
      else
        stageEntry "18-check-approval-records" .failed approval.scope
          (some "E_APPROVAL_RECORD_INCOMPLETE")

/-! ## Stage 19: ANF -/

def hasLetInPattern (body : List Char) : Bool :=
  match splitOnceText "let ".toList body with
  | some (_, after) => containsText " in " ("let ".toList ++ after)
  | none => false

def needsAnfLowering (body : List Char) : Bool :=
  containsText "while " body || containsText "for " body || containsText "loop " body ||
    (body.contains ';' && !hasLetInPattern body)

def lowerAnf : List VerificationEntry :=
  let bodyless := (graph.nodes.filter fun node =>
      node.kind = .function ∧ node.bodyExpr = none).map fun node =>
    stageEntry "19-lower-to-anf" .unverified node.name
      (some ("E_ANF_NO_BODY: function '" ++ node.name ++ "' has no body expression"))
  let bodies := graph.nodes.filterMap fun node => node.bodyExpr.map (node, ·)
  bodyless ++
    match bodies.find? fun pair => needsAnfLowering pair.2.toList with
    | some (node, body) =>
      [stageEntry "19-lower-to-anf" .unverified node.name
        (some ("body requires non-trivial ANF lowering: " ++ body))]
    | none =>
      [stageEntry "19-lower-to-anf" .proven "anf_ir"
        (some "graph expressions are ANF-compatible")]

/-! ## Stage 20: ordering -/

/-- What one body violates, as evidence. -/
def bodyViolation (tables : CharTables) (order : HashOrder) (body : List Char) :
    Except Panic (Option String) := do
  match ← findOrderingViolation tables order body with
  | some ident =>
    return some ("E_ANF_RESOURCE_ORDER: release('" ++ String.ofList ident ++
      "') appears before acquire('" ++ String.ofList ident ++ "')")
  | none => return (← findEffectOrderingViolation tables order body).map (·.evidence)

/-- The loop of `check_anf_ordering`; the first violation ends it. -/
def checkAnfOrderingOf (tables : CharTables) (order : HashOrder) :
    List GraphNode → Except Panic VerificationEntry
  | [] =>
    .ok (stageEntry "20-check-anf-effect-resource-ordering" .proven "anf_ir"
      (some "effect/resource ordering preserved"))
  | node :: nodes =>
    match node.bodyExpr with
    | none => checkAnfOrderingOf tables order nodes
    | some body => do
      match ← bodyViolation tables order body.toList with
      | some evidence =>
        return stageEntry "20-check-anf-effect-resource-ordering" .failed node.name (some evidence)
      | none => checkAnfOrderingOf tables order nodes

def checkAnfOrdering (tables : CharTables) (order : HashOrder) (graph : SemanticGraph) :
    Except Panic VerificationEntry :=
  checkAnfOrderingOf tables order graph.nodes

section Ordering

variable {tables : CharTables} {order : HashOrder}

theorem bodyViolation_ok_iff {body : List Char} :
    (∃ violation, bodyViolation tables order body = .ok violation) ↔ IsAscii body := by
  simp only [bodyViolation, bind_eq_ok]
  constructor
  · rintro ⟨_, found, hfound, -⟩
    exact findOrderingViolation_ok_iff.1 ⟨found, hfound⟩
  · intro hascii
    obtain ⟨found, hfound⟩ := (@findOrderingViolation_ok_iff tables order body).2 hascii
    cases found with
    | some ident => exact ⟨_, some ident, hfound, rfl⟩
    | none =>
      obtain ⟨violation, hviolation⟩ :=
        (@findEffectOrderingViolation_ok_iff tables order body).2 hascii
      exact ⟨violation.map (·.evidence), none, hfound, by simp [hviolation, bind, Except.bind, pure,
        Except.pure]⟩

/-- The node has a body that violates an order. -/
def Disordered (tables : CharTables) (order : HashOrder) (node : GraphNode) : Prop :=
  ∃ body, node.bodyExpr = some body ∧
    ∃ evidence, bodyViolation tables order body.toList = .ok (some evidence)

/-- A body that is not ASCII comes after one that violates an order. -/
def BodiesReadable (tables : CharTables) (order : HashOrder) (nodes : List GraphNode) : Prop :=
  ∀ before node after, nodes = before ++ node :: after →
    ∀ body, node.bodyExpr = some body → ¬ IsAscii body.toList →
      ∃ earlier ∈ before, Disordered tables order earlier

variable {nodes : List GraphNode}

theorem bodiesReadable_cons {node : GraphNode}
    (hascii : ∀ body, node.bodyExpr = some body → IsAscii body.toList)
    (hordered : ¬ Disordered tables order node) :
    BodiesReadable tables order (node :: nodes) ↔ BodiesReadable tables order nodes := by
  constructor
  · rintro hreadable before next after rfl body hbody hnot
    obtain ⟨earlier, hearlier, hdisordered⟩ :=
      hreadable (node :: before) next after rfl body hbody hnot
    obtain rfl | hmem := mem_cons.1 hearlier
    · exact absurd hdisordered hordered
    · exact ⟨earlier, hmem, hdisordered⟩
  · intro hreadable before next after heq body hbody hnot
    obtain ⟨rfl, hcons⟩ | ⟨before, rfl, hrest⟩ := cons_eq_append_iff.1 heq
    · cases hcons
      exact absurd (hascii body hbody) hnot
    · obtain ⟨earlier, hmem, hdisordered⟩ := hreadable before next after hrest body hbody hnot
      exact ⟨earlier, .tail _ hmem, hdisordered⟩

theorem checkAnfOrderingOf_ok_iff :
    (∃ entry, checkAnfOrderingOf tables order nodes = .ok entry) ↔
      BodiesReadable tables order nodes := by
  induction nodes with
  | nil => simp [checkAnfOrderingOf, BodiesReadable]
  | cons node nodes ih =>
    unfold checkAnfOrderingOf
    cases hbody : node.bodyExpr with
    | none =>
      rw [bodiesReadable_cons (by simp [hbody]) (by simp [Disordered, hbody])]
      exact ih
    | some body =>
      cases hviolation : bodyViolation tables order body.toList with
      | error panic =>
        refine iff_of_false (by simp [hviolation, bind, Except.bind]) fun hreadable => ?_
        have hnot : ¬ IsAscii body.toList := fun hascii => by
          obtain ⟨violation, hok⟩ := (@bodyViolation_ok_iff tables order body.toList).2 hascii
          cases hok.symm.trans hviolation
        obtain ⟨earlier, hmem, -⟩ := hreadable [] node nodes rfl body hbody hnot
        cases hmem
      | ok violation =>
        have hascii := bodyViolation_ok_iff.1 ⟨violation, hviolation⟩
        cases violation with
        | some evidence =>
          refine iff_of_true ⟨_, by simp [hviolation]; rfl⟩ ?_
          intro before next after heq text htext hnot
          obtain ⟨rfl, hcons⟩ | ⟨before, rfl, -⟩ := cons_eq_append_iff.1 heq
          · cases hcons
            cases htext.symm.trans hbody
            exact absurd hascii hnot
          · exact ⟨node, .head _, body, hbody, evidence, hviolation⟩
        | none =>
          have hordered : ¬ Disordered tables order node := by
            rintro ⟨text, htext, evidence, hevidence⟩
            cases htext.symm.trans hbody
            cases hevidence.symm.trans hviolation
          rw [bodiesReadable_cons (by simp [hbody, hascii]) hordered]
          simpa [hviolation, bind, Except.bind] using ih

end Ordering

/-! ## Stage 21: the manifest -/

/-- `{:016x}`. -/
def hex16 (n : UInt64) : String :=
  let digits := Nat.toDigits 16 n.toNat
  String.ofList (List.replicate (16 - digits.length) '0' ++ digits)

def capsDigest (names : List String) : UInt64 :=
  names.foldl (fun h name =>
    name.toUTF8.data.toList.foldl (fun h byte => (h ^^^ byte.toUInt64) * 0x00000001000001b3) h *
      0x9e3779b97f4a7c15) 0xcbf29ce484222325

/-- `compute_caps_hash`, for names in order. -/
def computeCapsHash (names : List String) : String :=
  let h := capsDigest names
  hex16 h ++ hex16 (h * 0x517cc1b727220a95 + 0xf6bdbff8bce24095) ++
    hex16 (h * 0xbf58476d1ce4e5b9 + 0x94d049bb133111eb) ++
    hex16 (h * 0x6c62272e07bb0142 + 0x62b821756295c58d)

/-- The names of the capability nodes. -/
def graphCaps : List String :=
  (graph.nodes.filter (·.kind = .capability)).map (·.name)

def validateManifest (manifestCaps : List String) (artifactManifestHash : Option String) :
    VerificationEntry :=
  let caps := orderedSet (graphCaps graph)
  let mismatch := artifactManifestHash.filter (computeCapsHash caps ≠ ·)
  match mismatch with
  | some expected =>
    stageEntry "21-generate-validate-manifest" .failed "capabilities_manifest"
      (some ("E_MANIFEST_HASH_MISMATCH: expected " ++ expected ++ ", computed " ++
        computeCapsHash caps))
  | none =>
    if manifestCaps = [] ∧ caps = [] then
      stageEntry "21-generate-validate-manifest" .proven "capabilities_manifest"
        (some "no capabilities required")
    else if caps = orderedSet manifestCaps then
      stageEntry "21-generate-validate-manifest" .proven "capabilities_manifest"
        (some (toString caps.length ++ " capabilities validated"))
    else
      stageEntry "21-generate-validate-manifest" .failed "capabilities_manifest"
        (some "E_MANIFEST_MISMATCH: graph capabilities differ from manifest capabilities")

/-! ## Stage 22: artifacts -/

structure ArtifactEntry where
  name : String
  expectedHash : String
  actualHash : String

def codegenClaimRank (claim : String) : Nat :=
  if claim = "codegen-consistency" then 0 else if claim = "manifest-consistency" then 1 else 9

def artifactEntry (artifact : ArtifactEntry) : VerificationEntry :=
  let scope := "artifact:" ++ artifact.name
  if artifact.expectedHash = "" ∨ artifact.actualHash = "" then
    stageEntry "codegen-consistency" .unverified scope
      (some ("artifact '" ++ artifact.name ++ "' hash not computed; cannot verify consistency"))
  else if artifact.expectedHash = artifact.actualHash then
    stageEntry "codegen-consistency" .proven scope none
  else
    stageEntry "codegen-consistency" .failed scope
      (some ("artifact '" ++ artifact.name ++ "' hash mismatch: expected '" ++
        artifact.expectedHash ++ "', actual '" ++ artifact.actualHash ++ "'"))

def CodegenChecker.checkArtifacts (artifacts : List ArtifactEntry) : VerificationReport :=
  ⟨normalizeEntries codegenClaimRank (artifacts.map artifactEntry)⟩

/-- The loop over the capability nodes: each takes one occurrence of its
name out of the manifest. What remains there is surplus. -/
def manifestEntries : List String → List String → List VerificationEntry
  | [], remaining =>
    remaining.map fun cap =>
      stageEntry "manifest-consistency" .failed ("capability:" ++ cap)
        (some ("capability '" ++ cap ++ "' is in capabilities manifest but not declared in the " ++
          "semantic graph; manifest mismatch"))
  | cap :: caps, remaining =>
    (if cap ∈ remaining then stageEntry "manifest-consistency" .proven ("capability:" ++ cap) none
      else
        stageEntry "manifest-consistency" .failed ("capability:" ++ cap)
          (some ("capability '" ++ cap ++ "' declared in graph but not present in capabilities " ++
            "manifest; manifest mismatch"))) ::
      manifestEntries caps (remaining.erase cap)

def CodegenChecker.checkManifestConsistency (manifestCaps : List String) : VerificationReport :=
  ⟨normalizeEntries codegenClaimRank (manifestEntries (graphCaps graph) manifestCaps)⟩

end Ail.Verify
