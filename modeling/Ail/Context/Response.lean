import Ail.Context.Selection

/-!
# The response builder

`ResponseBuilder::build_full` turns a query and a materialised graph into
a bounded response: the candidates are put in canonical order, the
redacted ones are taken out, the rest is cut at the byte budget, and
summary, hashes and infos are computed from what is left (`ail-context`,
`builder.rs`, `assembly.rs`, `redaction.rs`, `summary.rs`,
`freshness.rs`).

What a response says about a redacted node is its ref, in a descriptor or
a diagnostic. Every other part is made from nodes that were kept, which
is what `Shows` and `buildFull_shows` are about.

CBOR and blake3 are parameters.
-/

namespace Ail.Context

open Ail.Core Storage List

abbrev Bytes := List UInt8

/-- The third-party code of the builder: CBOR of the encoded types,
blake3, and the bytes of an object id. -/
structure Codec (Oid : Type) where
  encodeQuery : ContextQuery Oid → Except String Bytes
  encodeNode : GraphNode → Except String Bytes
  encodeNodes : List GraphNode → Except String Bytes
  encodeGraph : SemanticGraph → Except String Bytes
  hash : Bytes → Oid
  asBytes : Oid → Bytes

variable {Oid : Type}

/-! ## Diagnostics -/

instance ordNodeRef : Ord NodeRef := ⟨fun a b => compare a.val b.val⟩

structure BundleDescriptor where
  nodeRef : Option NodeRef
  edgeSource : Option NodeRef := none
  edgeTarget : Option NodeRef := none
  edgeKind : Option String := none
  ordinal : Option Nat := none
  deriving DecidableEq, Ord

structure BundleIssue where
  code : String
  descriptor : BundleDescriptor
  deriving DecidableEq, Ord

def issueDuplicateNodeRef : String := "CTX_BUNDLE_DUPLICATE_NODE_REF"
def issueMissingNodeRef : String := "CTX_BUNDLE_MISSING_NODE_REF"
def issueUnstableInputOrder : String := "CTX_BUNDLE_UNSTABLE_INPUT_ORDER"

/-- The name of a kind, as `{:?}` prints it. -/
def edgeKindDebug : EdgeKind → String
  | .calls => "Calls" | .dynCalls => "DynCalls" | .reads => "Reads" | .writes => "Writes"
  | .emits => "Emits" | .dependsOn => "DependsOn" | .proves => "Proves"
  | .breaksIfChanged => "BreaksIfChanged" | .consumes => "Consumes" | .releases => "Releases"
  | .spawnedBy => "SpawnedBy" | .childOf => "ChildOf" | .safeCapability => "SafeCapability"

def nodeKindDebug : NodeKind → String
  | .module => "Module" | .function => "Function" | .type => "Type" | .effect => "Effect"
  | .capability => "Capability" | .contract => "Contract" | .invariant => "Invariant"
  | .test => "Test" | .boundary => "Boundary" | .package => "Package"
  | .interface => "Interface" | .impl => "Impl" | .effectAlias => "EffectAlias"
  | .import => "Import" | .export => "Export" | .versionConstraint => "VersionConstraint"
  | .capabilityExport => "CapabilityExport" | .contractExport => "ContractExport"

/-- The first node whose ref is below its predecessor's; later ones are
not reported. -/
def unstableOrderIssue : Nat → Option NodeRef → List GraphNode → List BundleIssue
  | _, _, [] => []
  | ordinal, last, node :: nodes =>
    if last.any fun prev => node.id.val < prev.val then
      [⟨issueUnstableInputOrder, { nodeRef := some node.id, ordinal := some ordinal }⟩]
    else unstableOrderIssue (ordinal + 1) (some node.id) nodes

/-- One issue per ref that occurs twice, in ref order. -/
def duplicateIssues (nodes : List GraphNode) : List BundleIssue :=
  let refs := nodes.map (·.id)
  ((sortRefs refs.dedup).filter fun ref => 1 < refs.count ref).map fun ref =>
    ⟨issueDuplicateNodeRef, { nodeRef := some ref }⟩

def missingIssues (graph : SemanticGraph) : List BundleIssue :=
  graph.edges.flatMap fun edge =>
    ([edge.source, edge.target].filter (· ∉ graph.nodes.map (·.id))).map fun ref =>
      ⟨issueMissingNodeRef,
        { nodeRef := some ref, edgeSource := some edge.source, edgeTarget := some edge.target,
          edgeKind := some (edgeKindDebug edge.kind) }⟩

def diagnoseGraphManifest (graph : SemanticGraph) : List BundleIssue :=
  unstableOrderIssue 0 none graph.nodes ++ duplicateIssues graph.nodes ++ missingIssues graph

/-! ## Canonical order -/

/-- Ref, then encoded bytes, then position. -/
def keyedLe (a b : (NodeRef × Bytes × Nat) × GraphNode) : Bool :=
  ((compare a.1.1 b.1.1).then
    ((compare a.1.2.1 b.1.2.1).then (compare a.1.2.2 b.1.2.2))).isLE

def keyNodes (codec : Codec Oid) : Nat → List GraphNode →
    Except ContextError (List ((NodeRef × Bytes × Nat) × GraphNode))
  | _, [] => .ok []
  | ordinal, node :: nodes => do
    let encoded ← (codec.encodeNode node).mapError .codec
    let rest ← keyNodes codec (ordinal + 1) nodes
    .ok (((node.id, encoded, ordinal), node) :: rest)

def canonicalizeBundleNodes (codec : Codec Oid) (nodes : List GraphNode) :
    Except ContextError (List GraphNode × List BundleIssue) := do
  let keyed ← keyNodes codec 0 nodes
  .ok ((keyed.insertionSort fun a b => keyedLe a b = true).map (·.2),
    unstableOrderIssue 0 none nodes ++ duplicateIssues nodes)

/-! ## Redaction and budget -/

structure RedactedDescriptor where
  nodeRef : NodeRef
  ordinal : Option Nat

structure RedactionFilter where
  unredacted : List GraphNode
  redacted : Bool
  descriptors : List RedactedDescriptor

/-- Descriptors give a ref and a position, never a name or a body. -/
def filterRedacted (candidates : List GraphNode) (redactedRefs : List NodeRef) :
    RedactionFilter where
  unredacted := candidates.filter (·.id ∉ redactedRefs)
  redacted := candidates.any (·.id ∈ redactedRefs)
  descriptors :=
    (candidates.zipIdx.filter fun (node, _) => node.id ∈ redactedRefs).map fun (node, ordinal) =>
      ⟨node.id, some ordinal⟩

structure RedactionPolicy where
  label : String
  categories : List String
  requiresApproval : Bool

inductive RedactionState where
  | none | partly | restricted

def computeRedactionState (policy : Option RedactionPolicy) (redacted : Bool) : RedactionState :=
  if policy.any (·.requiresApproval) then .restricted else if redacted then .partly else .none

structure BudgetResult where
  structured : List GraphNode
  bytesUsed : Nat
  truncated : Bool
  omittedSections : List String

/-- Nodes are taken until the first one that does not fit. -/
def applyBudget (codec : Codec Oid) (budget : Nat) :
    Nat → List GraphNode → Except ContextError BudgetResult
  | bytesUsed, [] => .ok ⟨[], bytesUsed, false, []⟩
  | bytesUsed, node :: nodes => do
    let nodeBytes ← (codec.encodeNode node).mapError .codec
    if budget < bytesUsed + nodeBytes.length then .ok ⟨[], bytesUsed, true, ["structured_nodes"]⟩
    else
      let result ← applyBudget codec budget (bytesUsed + nodeBytes.length) nodes
      .ok { result with structured := node :: result.structured }

/-! ## The rest of the response -/

def renderSummary (nodes : List GraphNode) : String :=
  String.intercalate "\n" (nodes.map fun n => nodeKindDebug n.kind ++ ": " ++ n.name)

inductive FreshnessStatus where
  | fresh | stale | unknown

structure RepairOption where
  optionId : String
  description : String
  suggestedQuery : Option String

structure IndexInfo (Oid : Type) where
  kind : String
  hash : Oid
  stale : Bool

structure ProvenanceBlock (Oid : Type) where
  sources : List String
  indexes : List (IndexInfo Oid)
  reports : List Oid

structure ResponseLimits where
  budgetBytes : Nat
  bytesUsed : Nat
  truncated : Bool
  omittedSections : List String

def resolveFreshnessStatus [DecidableEq Oid] (explicit : Option FreshnessStatus)
    (latestSnapshotId : Option Oid) (snapshotId : Oid) : FreshnessStatus :=
  explicit.getD <|
    match latestSnapshotId with
    | none => .fresh
    | some latestId => if latestId = snapshotId then .fresh else .stale

def buildRepairOptions (freshnessStatus : FreshnessStatus) (truncated : Bool)
    (query : ContextQuery Oid) (hasStaleIndex : Bool) : List RepairOption :=
  let suggested := query.target.map fun t => "context " ++ t.debug ++ " snapshot=latest"
  (match freshnessStatus with
    | .fresh => []
    | .stale => [⟨"query_latest", "Re-issue the query at the latest snapshot", suggested⟩]
    | .unknown =>
      [⟨"query_latest", "Retry freshness resolution against the latest snapshot", suggested⟩]) ++
  (if truncated then
    [⟨"narrow_scope", "Narrow the query scope or increase the budget", none⟩] else []) ++
  (if hasStaleIndex then
    [⟨"rebuild_index", "Rebuild stale derived indexes and retry", none⟩] else [])

def assembleProvenance (provenanceSources : List String) (indexInfo : List (IndexInfo Oid))
    (verificationReportHash : Option Oid) : ProvenanceBlock Oid where
  sources :=
    if "semantic_graph" ∈ provenanceSources then provenanceSources
    else "semantic_graph" :: provenanceSources
  indexes := indexInfo
  reports := verificationReportHash.toList

structure BuildOptions (Oid : Type) where
  allSnapshots : List (SnapshotEnvelope Oid) := []
  latestSnapshotId : Option Oid := none
  freshnessStatus : Option FreshnessStatus := none
  redactionPolicy : Option RedactionPolicy := none
  authorized : Bool := false
  generatedAt : UInt64 := 0
  provenanceSources : List String := []
  indexInfo : List (IndexInfo Oid) := []

/-- The response record of the builder (`dto::ContextResponse`). -/
structure ContextSlice (Oid : Type) where
  schema : String
  snapshot : SnapshotEnvelope Oid
  graphRootHash : Oid
  queryHash : Oid
  contextHash : Oid
  structured : List GraphNode
  summary : String
  freshness : UInt64
  generatedAt : UInt64
  redacted : Bool
  redactedDescriptors : List RedactedDescriptor
  diagnostics : List BundleIssue
  redactionState : RedactionState
  redactionPolicy : Option RedactionPolicy
  truncated : Bool
  limits : ResponseLimits
  historyEntries : List (SnapshotEnvelope Oid)
  freshnessStatus : FreshnessStatus
  provenance : ProvenanceBlock Oid
  repairOptions : List RepairOption
  impactInfo : Option ImpactInfo
  refactorInfo : Option RefactorInfo

section Build

variable [DecidableEq Oid] (codec : Codec Oid)

def impactInfoOf (query : ContextQuery Oid) (unredacted : List GraphNode) : Option ImpactInfo :=
  match query with
  | .impact _ _ => some (computeImpactInfo unredacted)
  | _ => none

def refactorInfoOf (query : ContextQuery Oid) (unredacted : List GraphNode)
    (graph : SemanticGraph) : Option RefactorInfo :=
  match query with
  | .refactorContext target _ | .extractCandidates target _ | .moveSafety target _ _ =>
    some (computeRefactorInfo unredacted target graph)
  | _ => none

/-- `diagnostics.sort(); diagnostics.dedup()`. -/
def sortIssues (issues : List BundleIssue) : List BundleIssue :=
  (issues.insertionSort fun a b => (compare a b).isLE = true).destutter (· ≠ ·)

/-- Everything after the two checks of `build_full`. -/
def assemble (query : ContextQuery Oid) (graph : SemanticGraph) (snapshot : SnapshotEnvelope Oid)
    (redactedRefs : List NodeRef) (opts : BuildOptions Oid) :
    Except ContextError (ContextSlice Oid) := do
  let queryCbor ← (codec.encodeQuery query).mapError .codec
  let (candidates, historyEntries) ←
    collectCandidatesWithHistory query graph snapshot opts.allSnapshots
  let (nodes, issues) ← canonicalizeBundleNodes codec candidates
  let filtered := filterRedacted nodes redactedRefs
  let result ← applyBudget codec query.budget 0 filtered.unredacted
  let structuredCbor ← (codec.encodeNodes result.structured).mapError .codec
  let freshnessStatus :=
    resolveFreshnessStatus opts.freshnessStatus opts.latestSnapshotId snapshot.id
  .ok
    { schema := "context/1.0"
      snapshot
      graphRootHash := snapshot.graphRootHash
      queryHash := codec.hash queryCbor
      contextHash := codec.hash structuredCbor
      structured := result.structured
      summary := renderSummary result.structured
      freshness := snapshot.createdAt
      generatedAt := opts.generatedAt
      redacted := filtered.redacted
      redactedDescriptors := filtered.descriptors
      diagnostics := sortIssues (diagnoseGraphManifest graph ++ issues)
      redactionState := computeRedactionState opts.redactionPolicy filtered.redacted
      redactionPolicy := opts.redactionPolicy
      truncated := result.truncated
      limits := ⟨query.budget, result.bytesUsed, result.truncated, result.omittedSections⟩
      historyEntries
      freshnessStatus
      provenance :=
        assembleProvenance opts.provenanceSources opts.indexInfo snapshot.verificationReportHash
      repairOptions := buildRepairOptions freshnessStatus result.truncated query
        (opts.indexInfo.any (·.stale))
      impactInfo := impactInfoOf query filtered.unredacted
      refactorInfo := refactorInfoOf query filtered.unredacted graph }

/-- An unauthorized caller may not target a redacted node. -/
def buildFull (query : ContextQuery Oid) (graph : SemanticGraph) (snapshot : SnapshotEnvelope Oid)
    (redactedRefs : List NodeRef) (opts : BuildOptions Oid) :
    Except ContextError (ContextSlice Oid) :=
  if query.budget = 0 then .error .invalidBudget
  else if !opts.authorized && query.target.any (· ∈ redactedRefs) then .error .accessDenied
  else assemble codec query graph snapshot redactedRefs opts

end Build

/-! ## What a response shows -/

/-- A node's content is in the response, or the node is named as affected
by a change: anything beyond the ref in a descriptor or a diagnostic. -/
def ContextSlice.Shows (slice : ContextSlice Oid) (ref : NodeRef) : Prop :=
  ref ∈ slice.structured.map (·.id) ∨
    (∃ info, slice.impactInfo = some info ∧ ref ∈ info.refs) ∨
    ∃ info, slice.refactorInfo = some info ∧ ref ∈ info.refs

/-- The bytes of the nodes, each encoded on its own. -/
def encodedBytes (codec : Codec Oid) (nodes : List GraphNode) : Nat :=
  (nodes.map fun node => ((codec.encodeNode node).toOption.getD []).length).sum

/-- The budget keeps the longest front part that fits, and the response is
truncated if that is not everything. -/
theorem applyBudget_spec {codec : Codec Oid} {budget bytesUsed : Nat} {nodes : List GraphNode}
    {result : BudgetResult} (hresult : applyBudget codec budget bytesUsed nodes = .ok result)
    (hused : bytesUsed ≤ budget) :
    result.structured <+: nodes ∧ bytesUsed + encodedBytes codec result.structured ≤ budget ∧
      (∀ taken, taken <+: nodes → bytesUsed + encodedBytes codec taken ≤ budget →
        taken <+: result.structured) ∧
      (result.truncated = true ↔ result.structured.length < nodes.length) := by
  induction nodes generalizing bytesUsed result with
  | nil =>
    cases hresult
    exact ⟨prefix_rfl, hused, fun _ htaken _ => htaken, by simp⟩
  | cons node nodes ih =>
    unfold applyBudget at hresult
    cases hencode : codec.encodeNode node with
    | error message => simp [hencode, Except.mapError, bind, Except.bind] at hresult
    | ok encoded =>
      have hcons : ∀ taken,
          encodedBytes codec (node :: taken) = encoded.length + encodedBytes codec taken := by
        simp [encodedBytes, hencode, Except.toOption]
      simp only [hencode, Except.mapError, bind, Except.bind] at hresult
      split at hresult
      next hfull =>
        cases hresult
        refine ⟨List.nil_prefix, hused, fun taken htaken hfits => ?_, by simp⟩
        rcases prefix_cons_iff.1 htaken with rfl | ⟨taken, rfl, -⟩
        · exact List.nil_prefix
        · have := hcons taken
          omega
      next hroom =>
        split at hresult
        · cases hresult
        · rename_i rest hrest
          cases hresult
          obtain ⟨hfront, hbytes, hlongest, htruncated⟩ := ih hrest (by omega)
          refine ⟨(prefix_cons_inj node).2 hfront, ?_, fun taken htaken hfits => ?_, ?_⟩
          · rw [hcons]
            omega
          · rcases prefix_cons_iff.1 htaken with rfl | ⟨taken, rfl, hrest⟩
            · exact List.nil_prefix
            · rw [hcons] at hfits
              exact (prefix_cons_inj node).2 (hlongest taken hrest (by omega))
          · simpa using htruncated

variable {query : ContextQuery Oid} {graph : SemanticGraph} {snapshot : SnapshotEnvelope Oid}
  {redactedRefs : List NodeRef} {opts : BuildOptions Oid} {slice : ContextSlice Oid} {ref : NodeRef}

theorem mem_of_mem_unredacted {candidates : List GraphNode}
    (hmem : ref ∈ (filterRedacted candidates redactedRefs).unredacted.map (·.id)) :
    ref ∉ redactedRefs := by
  obtain ⟨node, hnode, rfl⟩ := mem_map.1 hmem
  simpa using (mem_filter.1 hnode).2

/-- The selected nodes in canonical order, without the redacted ones. -/
def unredactedCandidates (codec : Codec Oid) [DecidableEq Oid] (query : ContextQuery Oid)
    (graph : SemanticGraph) (snapshot : SnapshotEnvelope Oid) (redactedRefs : List NodeRef)
    (opts : BuildOptions Oid) : Except ContextError (List GraphNode) := do
  let (candidates, _) ← collectCandidatesWithHistory query graph snapshot opts.allSnapshots
  let (nodes, _) ← canonicalizeBundleNodes codec candidates
  .ok (filterRedacted nodes redactedRefs).unredacted

variable [DecidableEq Oid] {codec : Codec Oid}

/-- What a successful build is made of. -/
theorem buildFull_eq_ok (hbuild : buildFull codec query graph snapshot redactedRefs opts =
    .ok slice) :
    slice.snapshot = snapshot ∧ ∃ nodes result,
      unredactedCandidates codec query graph snapshot redactedRefs opts =
        .ok (filterRedacted nodes redactedRefs).unredacted ∧
      applyBudget codec query.budget 0 (filterRedacted nodes redactedRefs).unredacted = .ok result ∧
      slice.structured = result.structured ∧ slice.truncated = result.truncated ∧
      slice.impactInfo = impactInfoOf query (filterRedacted nodes redactedRefs).unredacted ∧
      slice.refactorInfo =
        refactorInfoOf query (filterRedacted nodes redactedRefs).unredacted graph := by
  unfold buildFull at hbuild
  split at hbuild
  · cases hbuild
  split at hbuild
  · cases hbuild
  simp only [assemble, bind, Except.bind] at hbuild
  split at hbuild
  · cases hbuild
  split at hbuild
  · cases hbuild
  rename_i selected hselected
  split at hbuild
  · cases hbuild
  rename_i canonical hcanonical
  split at hbuild
  · cases hbuild
  rename_i result hresult
  split at hbuild
  · cases hbuild
  cases hbuild
  refine ⟨rfl, canonical.1, result, ?_, hresult, rfl, rfl, rfl, rfl⟩
  simp [unredactedCandidates, bind, Except.bind, hselected, hcanonical]

/-- A response shows no redacted node. -/
theorem buildFull_shows (hbuild : buildFull codec query graph snapshot redactedRefs opts =
    .ok slice)
    (hshows : slice.Shows ref) : ref ∉ redactedRefs := by
  obtain ⟨-, nodes, result, -, hresult, hstructured, -, himpact, hrefactor⟩ :=
    buildFull_eq_ok hbuild
  refine @mem_of_mem_unredacted redactedRefs ref nodes ?_
  rcases hshows with hmem | ⟨info, hinfo, hmem⟩ | ⟨info, hinfo, hmem⟩
  · rw [hstructured] at hmem
    exact ((applyBudget_spec hresult (Nat.zero_le _)).1.sublist.map _).mem hmem
  · rw [himpact] at hinfo
    unfold impactInfoOf at hinfo
    split at hinfo
    · cases hinfo
      exact mem_of_mem_computeImpactInfo hmem
    · cases hinfo
  · rw [hrefactor] at hinfo
    unfold refactorInfoOf at hinfo
    split at hinfo
    all_goals first
      | (cases hinfo
         exact mem_of_mem_computeRefactorInfo hmem)
      | exact nomatch hinfo

end Ail.Context
