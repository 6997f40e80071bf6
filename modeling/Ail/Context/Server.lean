import Ail.Context.Response
import Ail.Lib.Outcome

/-!
# The context server

`ContextServer` answers queries about a snapshot. A caller gets a session
for a configured token through an `auth` request and sends the session,
not the token, with every later request (`ail-context`, `server.rs`).
The session decides which redaction rules are lifted.

The server keeps no record of the sessions it issued and `query` asks
only that there be one: whoever writes a session into a request is
believed. `sessions_issued_iff` says for which configurations and
sessions nothing follows from that.

Snapshots and graphs come from a source, the derived indexes from a cache
file; both are parameters.
-/

namespace Ail.Context

open Ail.Core Storage Lib List

variable {Oid : Type} {nodes : List GraphNode} {node : GraphNode} {ref : NodeRef} {field : String}

/-! ## Sessions and rules -/

inductive TrustLevel where
  | pub | internal | privileged

def TrustLevel.rank : TrustLevel → Nat
  | .pub => 0
  | .internal => 1
  | .privileged => 2

instance ltTrustLevel : LT TrustLevel := ⟨fun a b => a.rank < b.rank⟩

instance decidableLtTrustLevel (a b : TrustLevel) : Decidable (a < b) :=
  inferInstanceAs (Decidable (a.rank < b.rank))

structure AuthSession where
  principal : String
  trustLevel : TrustLevel

structure FieldRedactionRule where
  field : String
  minTrust : TrustLevel
  category : String

structure ContextServerConfig where
  requireAuth : Bool := false
  tokens : List (String × AuthSession) := []
  redactionRules : List FieldRedactionRule := []

/-- The trust of a request without a session is `Public`. -/
def sessionTrust (session : Option AuthSession) : TrustLevel :=
  (session.map (·.trustLevel)).getD .pub

/-- A rule on any other field matches no node. -/
def nodeHasField (node : GraphNode) (field : String) : Bool :=
  match field with
  | "body_expr" => node.bodyExpr.isSome
  | "capability_reqs" => node.capabilityReqs.isSome
  | "contract_clauses" => node.contractClauses.isSome
  | "effect_row" => node.effectRow.isSome
  | "runtime_checks" => node.runtimeChecks.any (!·.isEmpty)
  | "trust_metadata" => node.trustMetadata.isSome
  | _ => false

def redactedRefsForSession (nodes : List GraphNode) (config : ContextServerConfig)
    (session : Option AuthSession) : List NodeRef :=
  (nodes.filter fun node => config.redactionRules.any fun rule =>
    sessionTrust session < rule.minTrust && nodeHasField node rule.field).map (·.id)

def redactionPolicyForSession (config : ContextServerConfig) (session : Option AuthSession) :
    Option RedactionPolicy :=
  let trust := sessionTrust session
  let categories := ((config.redactionRules.filter fun rule => trust < rule.minTrust).map
    (·.category)).dedup.insertionSort (· ≤ ·)
  if categories = [] then none
  else some ⟨"session-field-redaction", categories, trust < .privileged⟩

/-! ## Derived indexes -/

structure DerivedIndexes (Oid : Type) where
  snapshotId : Oid
  snapshotHash : Oid
  indexes : List (IndexInfo Oid)

/-- A graph that cannot be encoded is left out of the hash. -/
def indexHash (codec : Codec Oid) (kind : String) (snapshot : SnapshotEnvelope Oid)
    (graph : SemanticGraph) : Oid :=
  codec.hash (kind.toUTF8.toList ++ codec.asBytes snapshot.id ++
    codec.asBytes snapshot.graphRootHash ++
    match codec.encodeGraph graph with
    | .ok graphBytes => graphBytes
    | .error _ => [])

def buildIndexes (codec : Codec Oid) (snapshot : SnapshotEnvelope Oid) (graph : SemanticGraph) :
    DerivedIndexes Oid where
  snapshotId := snapshot.id
  snapshotHash := snapshot.graphRootHash
  indexes :=
    ["call_graph", "effect_graph", "proof_obligation", "resource_graph", "boundary_graph",
      "runtime_audit"].map fun kind => ⟨kind, indexHash codec kind snapshot graph, false⟩

/-! ## Requests and responses -/

inductive ContextRequest (Oid : Type) where
  | query (query : ContextQuery Oid) (snapshot : SnapshotSelector Oid)
      (session : Option AuthSession)
  | subscribe (query : ContextQuery Oid) (snapshot : SnapshotSelector Oid)
      (session : Option AuthSession)
  | auth (token : String)

inductive ContextResponse (Oid : Type) where
  | result (slice : ContextSlice Oid)
  | error (message : String)
  | stream (slices : List (ContextSlice Oid))
  | authenticated (session : AuthSession)

structure ContextRpcRequest (Oid : Type) where
  jsonrpc : String
  id : String
  method : String
  params : ContextRequest Oid

structure ContextRpcError where
  code : Int
  message : String

structure ContextRpcResponse (Oid : Type) where
  jsonrpc : String := "2.0"
  id : String
  result : Option (ContextResponse Oid) := none
  error : Option ContextRpcError := none

def contextRpcQueryMethod : String := "context.query"
def contextRpcSubscribeMethod : String := "context.subscribe"
def contextRpcAuthMethod : String := "context.auth"
def jsonrpcMethodNotFound : Int := -32601
def jsonrpcInvalidParams : Int := -32602

def ContextRequest.expectedRpcMethod : ContextRequest Oid → String
  | .query _ _ _ => contextRpcQueryMethod
  | .subscribe _ _ _ => contextRpcSubscribeMethod
  | .auth _ => contextRpcAuthMethod

/-! ## The server -/

/-- `ContextSource`: the snapshots and graphs that can be asked for. -/
structure ContextSource (Oid : Type) where
  resolveSnapshot : SnapshotSelector Oid → Except ContextError (SnapshotEnvelope Oid)
  loadGraph : Oid → Except ContextError SemanticGraph

/-- `indexCache` is `load_or_rebuild` of the cache file, when there is one. -/
structure ContextServer (Oid : Type) where
  source : ContextSource Oid
  config : ContextServerConfig
  indexCache : Option (SnapshotEnvelope Oid → SemanticGraph →
    Except ContextError (DerivedIndexes Oid)) := none

section Server

variable [DecidableEq Oid] (codec : Codec Oid)

def ContextServer.buildOptions (server : ContextServer Oid) (session : Option AuthSession)
    (indexes : List (IndexInfo Oid)) : BuildOptions Oid :=
  let latest := server.source.resolveSnapshot .latest
  { latestSnapshotId := latest.toOption.map (·.id)
    freshnessStatus := if latest.isOk then none else some .unknown
    redactionPolicy := redactionPolicyForSession server.config session
    authorized := ¬ sessionTrust session < .privileged
    provenanceSources := ["semantic_graph", "derived_indexes"]
    indexInfo := indexes }

def ContextServer.indexesFor (server : ContextServer Oid) (snapshot : SnapshotEnvelope Oid)
    (graph : SemanticGraph) : Except ContextError (DerivedIndexes Oid) :=
  match server.indexCache with
  | some loadOrRebuild => loadOrRebuild snapshot graph
  | none => .ok (buildIndexes codec snapshot graph)

def ContextServer.query (server : ContextServer Oid) (query : ContextQuery Oid)
    (selector : SnapshotSelector Oid) (session : Option AuthSession) :
    Except ContextError (ContextSlice Oid) :=
  if server.config.requireAuth && session.isNone then .error .accessDenied
  else do
    let snapshot ← server.source.resolveSnapshot selector
    let graph ← server.source.loadGraph snapshot.graphRootHash
    let indexes ← server.indexesFor codec snapshot graph
    let redactedRefs := redactedRefsForSession graph.nodes server.config session
    buildFull codec query graph snapshot redactedRefs (server.buildOptions session indexes.indexes)

def ContextServer.authenticate (server : ContextServer Oid) (token : String) :
    Except ContextError AuthSession :=
  match server.config.tokens.lookup token with
  | some session => .ok session
  | none => .error .accessDenied

def ContextServer.handle (server : ContextServer Oid) :
    ContextRequest Oid → ContextResponse Oid
  | .auth token =>
    match server.authenticate token with
    | .ok session => .authenticated session
    | .error err => .error err.display
  | .query query snapshot session =>
    match server.query codec query snapshot session with
    | .ok slice => .result slice
    | .error err => .error err.display
  | .subscribe query snapshot session =>
    match server.query codec query snapshot session with
    | .ok slice => .stream [slice]
    | .error err => .error err.display

def ContextServer.handleRpc (server : ContextServer Oid) (request : ContextRpcRequest Oid) :
    ContextRpcResponse Oid :=
  if request.method ∉ [contextRpcQueryMethod, contextRpcSubscribeMethod, contextRpcAuthMethod] then
    { id := request.id,
      error := some ⟨jsonrpcMethodNotFound, "method not found: " ++ request.method⟩ }
  else if request.method ≠ request.params.expectedRpcMethod then
    { id := request.id
      error := some ⟨jsonrpcInvalidParams,
        "method " ++ request.method ++ " does not match request payload"⟩ }
  else { id := request.id, result := some (server.handle codec request.params) }

end Server

/-! ## What issued sessions are to guarantee -/

def ContextRequest.session : ContextRequest Oid → Option AuthSession
  | .query _ _ session | .subscribe _ _ session => session
  | .auth _ => none

/-- The slices a response carries. -/
def ContextResponse.slices : ContextResponse Oid → List (ContextSlice Oid)
  | .result slice => [slice]
  | .stream slices => slices
  | .error _ | .authenticated _ => []

/-- A session configured for some token. -/
def ContextServerConfig.Issued (config : ContextServerConfig) (session : AuthSession) : Prop :=
  ∃ token, config.tokens.lookup token = some session

/-- The trust of a session lifts every rule on a node. -/
def ContextServerConfig.Lifts (config : ContextServerConfig) (session : AuthSession)
    (node : GraphNode) : Prop :=
  ∀ rule ∈ config.redactionRules, nodeHasField node rule.field →
    ¬ session.trustLevel < rule.minTrust

/-- `auth` returns issued sessions only; where authentication is required
a slice is given for an issued session only; and a slice shows a node
that is withheld from the public only for an issued session that lifts
every rule on it. -/
structure Guarded (server : ContextServer Oid) (request : ContextRequest Oid)
    (response : ContextResponse Oid) : Prop where
  authenticated : ∀ session, response = .authenticated session → server.config.Issued session
  answered : server.config.requireAuth = true → response.slices ≠ [] →
    ∃ session, request.session = some session ∧ server.config.Issued session
  shown : ∀ slice ∈ response.slices, ∀ graph,
    server.source.loadGraph slice.snapshot.graphRootHash = .ok graph → ∀ node ∈ graph.nodes,
      node.id ∈ redactedRefsForSession graph.nodes server.config none → slice.Shows node.id →
        ∃ session, request.session = some session ∧ server.config.Issued session ∧
          server.config.Lifts session node

variable {config : ContextServerConfig} {session : Option AuthSession}

/-! ## Lemmas on the parts -/

section Facts

theorem mem_redactedRefs : ref ∈ redactedRefsForSession nodes config session ↔
    ∃ node ∈ nodes, (∃ rule ∈ config.redactionRules, sessionTrust session < rule.minTrust ∧
      nodeHasField node rule.field = true) ∧ node.id = ref := by
  simp [redactedRefsForSession, and_assoc]

variable [DecidableEq Oid] {codec : Codec Oid} {server : ContextServer Oid}

variable {slice : ContextSlice Oid}

/-- What a query that is answered has been through. -/
theorem query_eq_ok {query : ContextQuery Oid} {selector : SnapshotSelector Oid}
    (hquery : server.query codec query selector session = .ok slice) :
    (server.config.requireAuth = true → session.isSome) ∧ ∃ graph opts,
      server.source.loadGraph slice.snapshot.graphRootHash = .ok graph ∧
      buildFull codec query graph slice.snapshot
        (redactedRefsForSession graph.nodes server.config session) opts = .ok slice := by
  unfold ContextServer.query at hquery
  split at hquery
  · cases hquery
  rename_i hauth
  refine ⟨fun hrequire => ?_, ?_⟩
  · cases session with
    | none => simp [hrequire] at hauth
    | some session => rfl
  · obtain ⟨snapshot, -, hquery⟩ := bind_eq_ok.1 hquery
    obtain ⟨graph, hgraph, hquery⟩ := bind_eq_ok.1 hquery
    obtain ⟨indexes, -, hquery⟩ := bind_eq_ok.1 hquery
    have hsnapshot := (buildFull_eq_ok hquery).1
    exact ⟨graph, _, hsnapshot ▸ hgraph, hsnapshot ▸ hquery⟩

variable {request : ContextRequest Oid}

/-- The slices of a response come from one query with the session of the
request. -/
theorem mem_slices_handle (hslice : slice ∈ (server.handle codec request).slices) :
    ∃ query selector, server.query codec query selector request.session = .ok slice := by
  cases request with
  | auth token =>
    simp only [ContextServer.handle] at hslice
    split at hslice <;> cases hslice
  | query query selector session | subscribe query selector session =>
    simp only [ContextServer.handle] at hslice
    split at hslice
    next found hquery =>
      obtain rfl := mem_singleton.1 hslice
      exact ⟨query, selector, hquery⟩
    next => cases hslice

theorem issued_of_authenticated {session : AuthSession}
    (hresponse : server.handle codec request = .authenticated session) :
    server.config.Issued session := by
  cases request with
  | auth token =>
    simp only [ContextServer.handle, ContextServer.authenticate] at hresponse
    split at hresponse
    next found hfound =>
      split at hfound
      next issued hlookup =>
        cases hfound
        cases hresponse
        exact ⟨token, hlookup⟩
      next => cases hfound
    next => cases hresponse
  | query _ _ _ | subscribe _ _ _ =>
    simp only [ContextServer.handle] at hresponse
    split at hresponse <;> cases hresponse

/-- A response shows only nodes that are not withheld from the session. -/
theorem not_mem_redactedRefs_of_shows (hslice : slice ∈ (server.handle codec request).slices)
    {graph : SemanticGraph}
    (hgraph : server.source.loadGraph slice.snapshot.graphRootHash = .ok graph)
    (hshows : slice.Shows ref) :
    ref ∉ redactedRefsForSession graph.nodes server.config request.session := by
  obtain ⟨query, selector, hquery⟩ := mem_slices_handle hslice
  obtain ⟨-, graph', opts, hgraph', hbuild⟩ := query_eq_ok hquery
  cases hgraph.symm.trans hgraph'
  exact buildFull_shows hbuild hshows

end Facts

/-! ## Which fields a trust level opens -/

/-- The fields a rule can be about. -/
def redactableFields : List String :=
  ["body_expr", "capability_reqs", "contract_clauses", "effect_row", "runtime_checks",
    "trust_metadata"]

/-- Every field with a rule above the public level keeps a rule above the
given one. -/
def ContextServerConfig.OpensNothing (config : ContextServerConfig) (trust : TrustLevel) : Prop :=
  ∀ field ∈ redactableFields,
    (∃ rule ∈ config.redactionRules, rule.field = field ∧ TrustLevel.pub < rule.minTrust) →
      ∃ rule ∈ config.redactionRules, rule.field = field ∧ trust < rule.minTrust

theorem mem_redactableFields (hfield : nodeHasField node field = true) :
    field ∈ redactableFields := by
  unfold nodeHasField at hfield
  split at hfield <;> first | decide | cases hfield

/-- What is withheld from the public stays withheld at a level that opens
nothing. -/
theorem mem_redactedRefs_of_opensNothing {session : AuthSession}
    (hopens : config.OpensNothing session.trustLevel)
    (hwithheld : ref ∈ redactedRefsForSession nodes config none) :
    ref ∈ redactedRefsForSession nodes config (some session) := by
  obtain ⟨node, hnode, ⟨rule, hrule, hpublic, hfield⟩, rfl⟩ := mem_redactedRefs.1 hwithheld
  obtain ⟨rule', hrule', hsame, htrust⟩ := hopens rule.field (mem_redactableFields hfield)
    ⟨rule, hrule, rfl, hpublic⟩
  exact mem_redactedRefs.2 ⟨node, hnode, ⟨rule', hrule', htrust, hsame ▸ hfield⟩, rfl⟩

/-- A node with one redactable field. -/
def bearing (field : String) : GraphNode :=
  let node : GraphNode := { id := ⟨0⟩, kind := .function, name := "fn.secret" }
  match field with
  | "body_expr" => { node with bodyExpr := some "secret" }
  | "capability_reqs" => { node with capabilityReqs := some ⟨[]⟩ }
  | "contract_clauses" => { node with contractClauses := some ⟨[], []⟩ }
  | "effect_row" => { node with effectRow := some ⟨[]⟩ }
  | "runtime_checks" => { node with runtimeChecks := some [⟨"p", "h"⟩] }
  | "trust_metadata" => { node with trustMetadata := some ⟨.verified, []⟩ }
  | _ => node

theorem nodeHasField_bearing {field' : String} (hfield : field ∈ redactableFields) :
    nodeHasField (bearing field) field' = true ↔ field' = field := by
  simp only [redactableFields, mem_cons, not_mem_nil, or_false] at hfield
  constructor
  · intro hhas
    have hfield' := mem_redactableFields hhas
    simp only [redactableFields, mem_cons, not_mem_nil, or_false] at hfield'
    rcases hfield with rfl | rfl | rfl | rfl | rfl | rfl <;>
      rcases hfield' with rfl | rfl | rfl | rfl | rfl | rfl <;>
      first | rfl | (revert hhas; decide)
  · rintro rfl
    rcases hfield with rfl | rfl | rfl | rfl | rfl | rfl <;> decide

/-! ## A server that is asked for one node -/

/-- The codec encodes everything it is given. -/
structure Codec.Total (codec : Codec Oid) : Prop where
  encodeQuery : ∀ query, ∃ bytes, codec.encodeQuery query = .ok bytes
  encodeNode : ∀ node, ∃ bytes, codec.encodeNode node = .ok bytes
  encodeNodes : ∀ nodes, ∃ bytes, codec.encodeNodes nodes = .ok bytes

/-- A server whose every snapshot holds one node. -/
def singleServer (codec : Codec Oid) (config : ContextServerConfig) (node : GraphNode) :
    ContextServer Oid where
  source :=
    { resolveSnapshot := fun _ =>
        .ok { id := codec.hash [], graphRootHash := codec.hash [], parentId := none,
              createdAt := 0 }
      loadGraph := fun _ => .ok ⟨[node], []⟩ }
  config

variable [DecidableEq Oid] {codec : Codec Oid}

/-- A query for the whole graph, with room for the node, is answered, and
shows the node unless it is redacted. -/
theorem buildFull_single (total : codec.Total) (node : GraphNode)
    (snapshot : SnapshotEnvelope Oid) (redactedRefs : List NodeRef) (opts : BuildOptions Oid) :
    ∃ budget slice,
      buildFull codec (.graph .full budget) ⟨[node], []⟩ snapshot redactedRefs opts = .ok slice ∧
        (node.id ∉ redactedRefs → slice.structured = [node]) := by
  obtain ⟨bytes, hbytes⟩ := total.encodeNode node
  let query : ContextQuery Oid := .graph .full { maxTokens := bytes.length + 1 }
  obtain ⟨queryCbor, hquery⟩ := total.encodeQuery query
  have hcanonical : ∃ issues, canonicalizeBundleNodes codec [node] = .ok ([node], issues) :=
    ⟨_, by simp [canonicalizeBundleNodes, keyNodes, hbytes]; rfl⟩
  obtain ⟨issues, hcanonical⟩ := hcanonical
  have hbudget : ∃ result,
      applyBudget codec query.budget 0 (filterRedacted [node] redactedRefs).unredacted =
        .ok result ∧
        (node.id ∉ redactedRefs → result.structured = [node]) := by
    by_cases hredacted : node.id ∈ redactedRefs
    · exact ⟨_, by simp [filterRedacted, hredacted]; rfl, fun h => absurd hredacted h⟩
    · refine ⟨⟨[node], bytes.length, false, []⟩, ?_, fun _ => rfl⟩
      simp [filterRedacted, hredacted, applyBudget, hbytes, Except.mapError, bind, Except.bind,
        query, ContextQuery.budget, ContextQuery.queryBudget, QueryBudget.effectiveBytes]
  obtain ⟨result, hresult, hstructured⟩ := hbudget
  obtain ⟨structuredCbor, hnodes⟩ := total.encodeNodes result.structured
  have hcandidates : collectCandidatesWithHistory query ⟨[node], []⟩ snapshot opts.allSnapshots =
      .ok ([node], []) := rfl
  refine ⟨{ maxTokens := bytes.length + 1 }, ?_⟩
  show ∃ slice, buildFull codec query ⟨[node], []⟩ snapshot redactedRefs opts = .ok slice ∧ _
  have htarget : query.target = none := rfl
  have hpositive : query.budget ≠ 0 := Nat.succ_ne_zero _
  rw [buildFull, htarget, Option.any_none, Bool.and_false]
  simp only [assemble, hquery, hcandidates, hcanonical, hresult, hnodes, bind, Except.bind]
  exact ⟨_, rfl, hstructured⟩

theorem singleServer_answers (total : codec.Total) (config : ContextServerConfig)
    (node : GraphNode) (session : Option AuthSession)
    (hauth : config.requireAuth = true → session.isSome) :
    ∃ budget slice,
      (singleServer codec config node).query codec (.graph .full budget) .latest session =
        .ok slice ∧
        (node.id ∉ redactedRefsForSession [node] config session → slice.Shows node.id) := by
  have hadmitted : ¬ (config.requireAuth && session.isNone) = true := by
    intro hdenied
    obtain ⟨hrequire, hnone⟩ := Bool.and_eq_true_iff.1 hdenied
    cases session <;> simp_all
  let snapshot : SnapshotEnvelope Oid :=
    { id := codec.hash [], graphRootHash := codec.hash [], parentId := none, createdAt := 0 }
  obtain ⟨budget, slice, hbuild, hstructured⟩ := buildFull_single total node snapshot
    (redactedRefsForSession [node] config session)
    ((singleServer codec config node).buildOptions session
      (buildIndexes codec snapshot ⟨[node], []⟩).indexes)
  refine ⟨budget, slice, ?_, fun hshown => .inl ?_⟩
  · exact (if_neg hadmitted).trans hbuild
  · rw [hstructured hshown]
    exact mem_singleton_self _

/-- A session that was not issued and is nevertheless of use is one that
some server answers against the guarantee. -/
theorem exists_unguarded (total : codec.Total) {carried : AuthSession}
    (hforged : ¬ config.Issued carried)
    (huseful : config.requireAuth = true ∨ ¬ config.OpensNothing carried.trustLevel) :
    ∃ (server : ContextServer Oid) (request : ContextRequest Oid), server.config = config ∧
      request.session = some carried ∧ ¬ Guarded server request (server.handle codec request) := by
  rcases huseful with hrequire | hopens
  · obtain ⟨budget, slice, hquery, -⟩ :=
      singleServer_answers total config (bearing "body_expr") (some carried) fun _ => rfl
    refine ⟨singleServer codec config (bearing "body_expr"),
      .query (.graph .full budget) .latest (some carried), rfl, rfl, fun guarded => ?_⟩
    have hanswered := guarded.answered hrequire
    rw [ContextServer.handle, hquery] at hanswered
    obtain ⟨issued, hissued, htoken⟩ := hanswered (cons_ne_nil _ _)
    exact hforged (Option.some.inj hissued ▸ htoken)
  · simp only [ContextServerConfig.OpensNothing, not_forall, not_exists, not_and] at hopens
    obtain ⟨field, hfield, ⟨rule, hrule, rfl, hpublic⟩, hopen⟩ := hopens
    obtain ⟨budget, slice, hquery, hshows⟩ :=
      singleServer_answers total config (bearing rule.field) (some carried) fun _ => rfl
    have hwithheld : (bearing rule.field).id ∈
        redactedRefsForSession [bearing rule.field] config none :=
      mem_redactedRefs.2 ⟨_, mem_singleton_self _,
        ⟨rule, hrule, hpublic, (nodeHasField_bearing hfield).2 rfl⟩, rfl⟩
    have hvisible : (bearing rule.field).id ∉
        redactedRefsForSession [bearing rule.field] config (some carried) := by
      intro hmem
      obtain ⟨node, hnode, ⟨rule', hrule', htrust, hhas⟩, -⟩ := mem_redactedRefs.1 hmem
      obtain rfl := mem_singleton.1 hnode
      exact hopen rule' hrule' ((nodeHasField_bearing hfield).1 hhas) htrust
    refine ⟨singleServer codec config (bearing rule.field),
      .query (.graph .full budget) .latest (some carried), rfl, rfl, fun guarded => ?_⟩
    have hshown := guarded.shown
    rw [ContextServer.handle, hquery] at hshown
    obtain ⟨issued, hissued, htoken, -⟩ := hshown slice (mem_singleton_self _) _ rfl
      (bearing rule.field) (mem_singleton_self _) hwithheld (hshows hvisible)
    exact hforged (Option.some.inj hissued ▸ htoken)

/-! ## The condition -/

/-- For every configuration and every session a request may carry, every
request with it is guarded, through either entry point and whatever the
server holds, exactly when the session was issued, or authentication is
not required and its trust level opens nothing. -/
theorem sessions_issued_iff {codec : Codec Oid} (total : codec.Total) (config : ContextServerConfig)
    (session : Option AuthSession) :
    (∀ (server : ContextServer Oid) (request : ContextRequest Oid), server.config = config →
      request.session = session →
        Guarded server request (server.handle codec request) ∧
        ∀ rpc : ContextRpcRequest Oid, rpc.params = request → ∀ response,
          (server.handleRpc codec rpc).result = some response → Guarded server request response) ↔
      ∀ carried, session = some carried →
        config.Issued carried ∨
          (config.requireAuth = false ∧ config.OpensNothing carried.trustLevel) := by
  constructor
  · rintro hguarded carried rfl
    by_contra hcondition
    obtain ⟨hforged, huseful⟩ := not_or.1 hcondition
    have huseful : config.requireAuth = true ∨ ¬ config.OpensNothing carried.trustLevel := by
      cases hrequire : config.requireAuth with
      | true => exact .inl rfl
      | false => exact .inr fun hopens => huseful ⟨hrequire, hopens⟩
    obtain ⟨server, request, hconfig, hsession, hunguarded⟩ :=
      exists_unguarded total hforged huseful
    exact hunguarded (hguarded server request hconfig hsession).1
  · rintro hcondition server request rfl rfl
    have hguarded : Guarded server request (server.handle codec request) := by
      refine ⟨fun session => issued_of_authenticated, fun hrequire hslices => ?_, ?_⟩
      · obtain ⟨slice, hslice⟩ := exists_mem_of_ne_nil _ hslices
        obtain ⟨query, selector, hquery⟩ := mem_slices_handle hslice
        obtain ⟨carried, hcarried⟩ := Option.isSome_iff_exists.1 ((query_eq_ok hquery).1 hrequire)
        rcases hcondition carried hcarried with hissued | ⟨hopen, -⟩
        · exact ⟨carried, hcarried, hissued⟩
        · simp [hrequire] at hopen
      · intro slice hslice graph hgraph node hnode hwithheld hshows
        have hvisible := not_mem_redactedRefs_of_shows hslice hgraph hshows
        cases hcarried : request.session with
        | none => exact absurd (hcarried ▸ hwithheld) hvisible
        | some carried =>
          rw [hcarried] at hvisible
          rcases hcondition carried hcarried with hissued | ⟨-, hopens⟩
          · refine ⟨carried, rfl, hissued, fun rule hrule hfield htrust => hvisible ?_⟩
            exact mem_redactedRefs.2 ⟨node, hnode, ⟨rule, hrule, htrust, hfield⟩, rfl⟩
          · exact absurd (mem_redactedRefs_of_opensNothing hopens hwithheld) hvisible
    refine ⟨hguarded, fun rpc hrpc response hresponse => ?_⟩
    unfold ContextServer.handleRpc at hresponse
    split at hresponse
    · cases hresponse
    split at hresponse
    · cases hresponse
    · cases hresponse
      rw [hrpc]
      exact hguarded

/-- Bodies are for privileged sessions, and the one token gives less. -/
def guardedConfig : ContextServerConfig where
  requireAuth := true
  tokens := [("ci-token", ⟨"ci", .internal⟩)]
  redactionRules := [⟨"body_expr", .privileged, "source"⟩]

/-- A codec that gives every value a byte. -/
def byteCodec : Codec Nat where
  encodeQuery _ := .ok [0]
  encodeNode _ := .ok [0]
  encodeNodes nodes := .ok (nodes.map fun _ => 0)
  encodeGraph _ := .ok [0]
  hash := List.length
  asBytes _ := []

theorem byteCodec_total : byteCodec.Total :=
  ⟨fun _ => ⟨_, rfl⟩, fun _ => ⟨_, rfl⟩, fun _ => ⟨_, rfl⟩⟩

/-- A session nobody issued is answered with the body of a node that is
withheld from the public. -/
theorem forged_session_answered :
    (∀ token, guardedConfig.tokens.lookup token ≠ some ⟨"intruder", .privileged⟩) ∧
    (bearing "body_expr").id ∈ redactedRefsForSession [bearing "body_expr"] guardedConfig none ∧
    ((singleServer byteCodec guardedConfig (bearing "body_expr")).handle byteCodec
        (.query (.graph .full { maxTokens := 100 }) .latest
          (some ⟨"intruder", .privileged⟩))).slices.map (·.structured) =
            [[bearing "body_expr"]] := by
  refine ⟨fun token => ?_, by decide, by decide +kernel⟩
  simp only [guardedConfig, lookup_cons]
  split <;> simp

/-- The issued session is guarded. -/
theorem sessions_issued_ci :
    Guarded (singleServer byteCodec guardedConfig (bearing "body_expr"))
      (.query (.graph .full { maxTokens := 100 }) .latest (some ⟨"ci", .internal⟩))
      ((singleServer byteCodec guardedConfig (bearing "body_expr")).handle byteCodec
        (.query (.graph .full { maxTokens := 100 }) .latest (some ⟨"ci", .internal⟩))) :=
  ((sessions_issued_iff byteCodec_total guardedConfig (some ⟨"ci", .internal⟩)).2
    (by rintro carried ⟨⟩; exact .inl ⟨"ci-token", rfl⟩) _ _ rfl rfl).1

end Ail.Context
