import Ail.Verify.Proof
import Ail.Verify.TypeRefinements

/-!
# The checkers of single concerns

Effects, contracts, resources, concurrency and boundaries. Each checker
looks at the nodes one by one and says in one entry per node (per clause
for contracts) how its concern stands there. Resources, concurrency and
boundaries are read off the level and the tags of a node's trust
metadata.

Of the reports the entries are kept; the diagnostics that accompany them
decide nothing in the pipeline.
-/

namespace Ail.Verify

open Ail.Core Lib

/-! ## Effects -/

def effectCheckEvidence (code category reason : String) (count : Nat) : String :=
  code ++ ": category=" ++ category ++ "; reason=" ++ reason ++ "; count=" ++ toString count ++
    "; descriptors=[" ++
    ", ".intercalate ((List.range count).map fun index => "effect#" ++ toString index) ++ "]"

variable (graph : SemanticGraph) (node : GraphNode)

/-- The names of the nodes the node emits to. -/
def inferredEffects : List String :=
  (graph.edges.filter fun edge => edge.kind = .emits ∧ edge.source = node.id).filterMap fun edge =>
    ((TypeContext.collect graph).byRef.lookup edge.target).map (·.name)

def EffectChecker.checkNode : VerificationEntry :=
  let declared := effectsOf node
  let inferred := inferredEffects graph node
  let undeclared := missing inferred declared
  let extra := missing declared inferred
  if undeclared ≠ [] then
    makeEntry "effect-check" .failed node.name
      (some (effectCheckEvidence "E_EFFECT_UNDECLARED" "effect.missing"
        "inferred effect(s) missing from effect_row" undeclared.length))
      ["add the missing effect to the node's effect_row declaration",
        "remove the Emits edge if the effect emission is unintended"]
  else if extra ≠ [] then
    makeEntry "effect-check" .assumed node.name
      (some (effectCheckEvidence "E_EFFECT_UNUSED" "effect.extra"
        "declared effect(s) absent from inferred Emits edges" extra.length))
      ["remove the unused effect declaration from effect_row",
        "add an Emits edge to connect the declared effect to its target node"]
  else makeEntry "effect-check" .proven node.name none []

/-- The entries are sorted; they all make the same claim. -/
def EffectChecker.check : VerificationReport :=
  ⟨normalizeEntries (fun _ => 0) (graph.nodes.map (checkNode graph))⟩

/-! ## Contracts -/

variable (solver : Solver)

/-- One clause: the literal `false` fails, the rest is for the solver. -/
def evaluateClause (label unsupported predicate : String) (role : ClauseRole) (scope : String) :
    VerificationEntry :=
  let claim := label ++ " " ++ predicate
  if trim predicate.toList = "false".toList then stageEntry claim .failed scope none
  else
    match solver.solve ⟨predicate, role, ""⟩ with
    | .proven => stageEntry claim .runtimeChecked scope none
    | .unsupported => stageEntry claim .assumed scope (some (unsupported ++ predicate))
    | .assumed reason => stageEntry claim .assumed scope (some reason)

def ClauseRole.label : ClauseRole → String
  | .requires => "requires"
  | .ensures => "ensures"

def ContractChecker.evaluate (solver : Solver) (predicate : String) (role : ClauseRole)
    (scope : String) : VerificationEntry :=
  evaluateClause solver (role.label ++ ":") "solver cannot evaluate predicate: "
    predicate role scope

def ContractChecker.evaluateInvariant (predicate : String) (role : ClauseRole) (scope : String) :
    VerificationEntry :=
  evaluateClause solver ("invariant-" ++ role.label ++ ":")
    "solver cannot evaluate invariant predicate: " predicate role scope

def ContractChecker.checkNode (node : GraphNode) : List VerificationEntry :=
  match node.contractClauses with
  | none => []
  | some clauses =>
    let evaluate := if node.kind = .invariant then evaluateInvariant solver else evaluate solver
    clauses.requires.map (evaluate · .requires node.name) ++
      clauses.ensures.map (evaluate · .ensures node.name)

def ContractChecker.check (graph : SemanticGraph) : VerificationReport :=
  ⟨graph.nodes.flatMap (checkNode solver)⟩

/-! ## Resources -/

inductive ResourceKind where
  | linear | affine | shared

def ResourceKind.ofLevel (level : String) : Option ResourceKind :=
  if level = "resource:linear" then some .linear
  else if level = "resource:affine" then some .affine
  else if level = "resource:shared" then some .shared
  else none

/-- A way a resource can be wrong: the tags that mark it and how it is
reported. -/
structure ResourceIssue where
  tags : List String
  state : VerificationState
  code : String
  category : String
  detail : String

/-- The issues that count for every kind of resource, the first one
found decides. -/
def resourceIssues : List ResourceIssue :=
  let lifecycle := "resource-lifecycle"
  let quota := "resource-quota-limit"
  [⟨["use-after-close"], .failed, "E_USE_AFTER_CLOSE", lifecycle, "use-after-close"⟩,
    ⟨["use-after-release"], .failed, "E_USE_AFTER_RELEASE", lifecycle, "use-after-release"⟩,
    ⟨["double-close"], .failed, "E_DOUBLE_CLOSE", lifecycle, "double-close"⟩,
    ⟨["double-release"], .failed, "E_DOUBLE_RELEASE", lifecycle, "double-release"⟩,
    ⟨["lifetime-mismatch"], .failed, "E_RESOURCE_LIFETIME_MISMATCH", lifecycle,
      "lifetime-mismatch"⟩,
    ⟨["quota-exceeded"], .failed, "E_RESOURCE_QUOTA_EXCEEDED", quota, "quota-exceeded"⟩,
    ⟨["limit-exceeded"], .failed, "E_RESOURCE_LIMIT_EXCEEDED", quota, "limit-exceeded"⟩,
    ⟨["missing-capability"], .unsafe_, "E_RESOURCE_MISSING_CAPABILITY", "resource-capability",
      "missing-capability"⟩,
    ⟨["leaked-resource", "leaked"], .failed, "E_RESOURCE_LEAKED", lifecycle, "leaked-resource"⟩]

def hasTag (tags : List String) (tag : String) : Bool := tags.any (· = tag)

def resourceIssueEvidence (code category detail : String) (target : NodeRef) : String :=
  code ++ ": category=" ++ category ++ "; target=node#" ++ toString target.val ++
    "; resource=resource#" ++ toString target.val ++ "; detail=" ++ detail

def hasOutgoing (source : NodeRef) (kinds : List EdgeKind) : Bool :=
  graph.edges.any fun edge => edge.source = source && edge.kind ∈ kinds

/-- `classify_resource`: state and evidence. -/
def ResourceChecker.classifyResource (kind : ResourceKind) (tags : List String) (node : NodeRef) :
    VerificationState × Option String :=
  let report (state : VerificationState) (code category detail : String) :=
    (state, some (resourceIssueEvidence code category detail node))
  match resourceIssues.find? fun issue => issue.tags.any (hasTag tags) with
  | some issue => report issue.state issue.code issue.category issue.detail
  | none =>
    match kind with
    | .linear =>
      if hasTag tags "never-consumed" then
        report .failed "E_LINEAR_NOT_CONSUMED" "resource-lifecycle" "never consumed"
      else if hasTag tags "released" || hasOutgoing graph node [.consumes, .releases] then
        (.proven, none)
      else
        report .unverified "E_RESOURCE_NO_LIFECYCLE_EDGE" "resource-lifecycle"
          "missing-lifecycle-edge"
    | .affine =>
      if ["released", "transaction-committed", "transaction-rolled-back", "lock-released",
          "stream-closed"].any (hasTag tags) then (.proven, none)
      else
        report .unverified "E_RESOURCE_NO_LIFECYCLE_EDGE" "resource-lifecycle"
          "affine-lifecycle-unverified"
    | .shared =>
      if hasTag tags "safe-capability" || hasOutgoing graph node [.safeCapability] then
        (.proven, none)
      else
        report .unsafe_ "E_SHARED_WITHOUT_SAFE_CAPABILITY" "resource-capability"
          "missing-safe-capability"

def ResourceChecker.checkNode : Option VerificationEntry :=
  node.trustMetadata.bind fun trust =>
    (ResourceKind.ofLevel trust.level.asStr).map fun kind =>
      let (state, evidence) := classifyResource graph kind trust.tags node.id
      stageEntry ("resource-lifecycle[" ++ trust.level.asStr ++ "]") state node.name evidence

def ResourceChecker.check : VerificationReport :=
  ⟨graph.nodes.filterMap (checkNode graph)⟩

/-! ## Concurrency -/

inductive ConcurrencyKind where
  | task | taskGroup | channel | sharedState | cellCrossing | unboundedConcurrency

def ConcurrencyKind.ofLevel (level : String) : Option ConcurrencyKind :=
  if level = "task" then some .task
  else if level = "task-group" then some .taskGroup
  else if level = "channel" then some .channel
  else if level = "shared-state" then some .sharedState
  else if level = "cell-crossing" then some .cellCrossing
  else if level = "unbounded-concurrency" then some .unboundedConcurrency
  else none

/-- An edge to a task group that spawned the task or holds it. -/
def hasParentScope (task : NodeRef) : Bool :=
  graph.edges.any fun edge =>
    edge.source = task && edge.kind ∈ [EdgeKind.spawnedBy, .childOf] &&
      graph.nodes.any fun node =>
        node.id = edge.target && node.trustMetadata.any (·.level.asStr = "task-group")

def ConcurrencyChecker.classify (kind : ConcurrencyKind) (tags : List String) (scope : String)
    (node : NodeRef) : VerificationState × Option String :=
  match kind with
  | .task =>
    if hasTag tags "orphan" then
      (.failed, some ("task '" ++ scope ++ "' is orphaned (not awaited, cancelled, or " ++
        "transferred); orphan tasks are always failed"))
    else if hasTag tags "awaited" || hasTag tags "cancelled" || hasTag tags "transferred" then
      (.proven, none)
    else if hasParentScope graph node then
      (.unverified, some ("task '" ++ scope ++ "' has no lifecycle tag " ++
        "(awaited/cancelled/transferred); lifecycle unverified"))
    else
      (.unverified, some ("task '" ++ scope ++ "' has no lifecycle tag and no parent TaskGroup " ++
        "scope edge; potential orphan scope"))
  | .taskGroup =>
    if hasTag tags "closed" then (.proven, none)
    else
      (.failed, some ("task group '" ++ scope ++ "' scope is not closed; all task groups must " ++
        "close cleanly"))
  | .channel =>
    if hasTag tags "closed" || hasTag tags "transferred" then (.proven, none)
    else
      (.unverified, some ("channel '" ++ scope ++ "' has no 'closed' or 'transferred' tag; " ++
        "lifecycle unverified"))
  | .sharedState =>
    if hasTag tags "safe-capability" then (.proven, none)
    else
      (.unsafe_, some ("shared state '" ++ scope ++ "' lacks 'safe-capability' tag; concurrent " ++
        "mutable access is unsafe"))
  | .cellCrossing =>
    (.failed, some ("Cell<T> '" ++ scope ++ "' crosses a task boundary; this is always a " ++
      "concurrency violation"))
  | .unboundedConcurrency =>
    if hasTag tags "policy-approved" then
      (.assumed, some ("unbounded concurrency '" ++ scope ++
        "' is policy-approved; treated as assumed"))
    else
      (.unverified, some ("unbounded concurrency '" ++ scope ++
        "' without policy approval; unverified by default"))

def ConcurrencyChecker.checkNode : Option VerificationEntry :=
  node.trustMetadata.bind fun trust =>
    (ConcurrencyKind.ofLevel trust.level.asStr).map fun kind =>
      let (state, evidence) := classify graph kind trust.tags node.name node.id
      stageEntry ("concurrency-safety[" ++ trust.level.asStr ++ "]") state node.name evidence

def ConcurrencyChecker.check : VerificationReport :=
  ⟨graph.nodes.filterMap (checkNode graph)⟩

/-! ## Boundaries -/

/-- `YYYY-MM-DD`, the digits of any value. -/
def isDateText (text : List Char) : Bool :=
  text.length = 10 && text.zipIdx.all fun (c, i) =>
    if i = 4 ∨ i = 7 then c = '-' else c.isDigit

/-- What an `expires:` tag decides on a given day. -/
def expiryOf (scope referenceDate tag : String) : Option (VerificationState × Option String) :=
  (stripFront "expires:" tag.toList).bind fun expires =>
    if !isDateText expires then
      some (.unverified, some ("expires tag has invalid date format: " ++ String.ofList expires))
    else if (compare (String.ofList expires) referenceDate).isLE then
      some (.failed, some ("E_BOUNDARY_EXPIRED_ASSUMPTION: boundary '" ++ scope ++
        "' assumption expired " ++ String.ofList expires ++ " (reference: " ++
          referenceDate ++ ")"))
    else none

def requiredTags : List String :=
  ["has-trust-level", "has-contract", "has-handler", "has-owner", "has-review-policy"]

/-- The classification by tags, without a date. -/
def BoundaryChecker.classifyTags (trust : TrustMetadata) (scope : String) :
    VerificationState × Option String :=
  let has := hasTag trust.tags
  if has "has-assumption-expired" || has "has-assumption-revoked" then
    (.failed, some ("E_BOUNDARY_ASSUMPTION_REVOKED: boundary '" ++ scope ++
      "' assumption has been expired or revoked"))
  else if has "has-assumption-proposed" && !has "has-assumption-approved" &&
      !has "has-assumption-active" then
    (.unverified, some ("boundary '" ++ scope ++
      "' assumption is proposed but not yet approved or active"))
  else if has "expired-assumption" then
    (.failed, some ("boundary '" ++ scope ++ "' assumption has expired; expired assumptions are " ++
      "rejected in prod/critical"))
  else if has "no-contract" then
    (.failed, some ("boundary '" ++ scope ++ "' has no contract; boundaries without contracts " ++
      "are always failed"))
  else if has "adapter-mismatch" then
    (.failed, some ("E_BOUNDARY_ADAPTER_MISMATCH: boundary '" ++ scope ++
      "' adapter shape does not match the declared contract"))
  else if has "ffi-host-type-mismatch" || has "host-type-mismatch" then
    (.failed, some ("E_BOUNDARY_FFI_HOST_TYPE_MISMATCH: boundary '" ++ scope ++
      "' FFI host type does not match the declared boundary schema"))
  else if trust.level = .unsafeLevel && !has "approved" then
    (.unsafe_, some ("E_BOUNDARY_UNSAFE_TRUST: boundary '" ++ scope ++
      "' has TrustLevel::Unsafe without explicit approval"))
  else if has "unsafe-ffi" && !has "approved" then
    (.unsafe_, some ("boundary '" ++ scope ++ "' uses unchecked FFI without explicit approval; " ++
      "unsafe FFI requires approval"))
  else
    match requiredTags.filter (!has ·) with
    | [] => (.assumed, none)
    | missing =>
      (.unverified, some ("boundary '" ++ scope ++ "' is missing required declarations: " ++
        ", ".intercalate missing))

/-- `classify_boundary`: with a reference date the `expires:` tags come
first. -/
def BoundaryChecker.classifyBoundary (trust : TrustMetadata) (scope : String)
    (referenceDate : Option String) : VerificationState × Option String :=
  (referenceDate.bind fun date => trust.tags.findSome? (expiryOf scope date)).getD
    (classifyTags trust scope)

def BoundaryChecker.checkNode (referenceDate : Option String) (node : GraphNode) :
    VerificationEntry :=
  let (state, evidence) := match node.trustMetadata with
    | none =>
      (.unverified, some ("boundary '" ++ node.name ++
        "' has no trust_metadata; boundary declarations are required"))
    | some trust => classifyBoundary trust node.name referenceDate
  stageEntry "boundary-trust" state node.name evidence

def BoundaryChecker.checkWithConfig (referenceDate : Option String) : VerificationReport :=
  ⟨(graph.nodes.filter (·.kind = .boundary)).map (checkNode referenceDate)⟩

/-- The default configuration has no date. -/
def BoundaryChecker.check : VerificationReport := checkWithConfig graph none

end Ail.Verify
