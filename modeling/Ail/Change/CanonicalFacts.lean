import Ail.Change.Canonical
import Ail.Change.ParserFacts
import Ail.Lib.StableSort

/-!
# What canonicalization keeps

The arguments of an op keep their values, up to the normalisation of
those that name a node. A body in the graph is the value of an argument
of some op (`applyOps_bodies`, `tryCanonicalizeParsed_bodies`), so it is a
single line whatever the document. And the canonical order puts the ops of
each phase together, in the order they were written.
-/

namespace Ail.Change

open Ail.Core Lib List

variable (tables : CaseTables) (digests : Digests)

/-! ## Arguments -/

theorem lookup_normalizeOpArgs (args : OpArgs) (key : String) :
    (normalizeOpArgs tables args).lookup key =
      if key ∈ idArgKeys then
        (args.lookup key).map fun value => String.ofList (normalizeId tables value.toList)
      else args.lookup key := by
  by_cases hmem : key ∈ idArgKeys
  · simp only [idArgKeys, mem_cons, not_mem_nil, or_false] at hmem
    rcases hmem with rfl | rfl | rfl | rfl | rfl <;>
      simp [normalizeOpArgs, idArgKeys, lookup_updateArg]
  · simp only [idArgKeys, mem_cons, not_or] at hmem
    simp [normalizeOpArgs, idArgKeys, lookup_updateArg, hmem]

/-- The keys the defaults and the marks are written to. -/
def defaultKeys : List String := ["visibility", "derive", "infer_pending"]

/-- The arguments of an op in its canonical form. -/
def canonicalArgs (op : ParsedOp) : OpArgs :=
  markInfer op.kind op.verb (materializeDefaults op.kind op.verb (normalizeOpArgs tables op.args))

theorem lookup_orInsertArg_if {p : Prop} [Decidable p] {key key' value : String} (hne : key' ≠ key)
    (args : OpArgs) :
    (if p then orInsertArg key value args else args).lookup key' = args.lookup key' := by
  split
  · exact lookup_orInsertArg_of_ne hne args
  · rfl

theorem lookup_canonicalArgs (op : ParsedOp) {key : String} (hkey : key ∉ defaultKeys) :
    (canonicalArgs tables op).lookup key = (normalizeOpArgs tables op.args).lookup key := by
  simp only [defaultKeys, mem_cons, not_mem_nil, or_false, not_or] at hkey
  obtain ⟨hvisibility, hderive, hpending⟩ := hkey
  rw [canonicalArgs, markInfer, lookup_orInsertArg_if hpending, materializeDefaults]
  split
  · rw [lookup_orInsertArg_if hderive, lookup_orInsertArg_if hvisibility]
  · rfl

variable {args : OpArgs} {entry : String × String} {body key value target verb : String}
  {P : String → Prop} {graph : SemanticGraph} {op : CanonicalOp} {α : Type} {ops : List CanonicalOp}

theorem mem_updateArg {update : String → String} (hmem : entry ∈ updateArg key update args)
    (hne : entry.1 ≠ key) : entry ∈ args := by
  obtain ⟨old, hold, heq⟩ := mem_map.1 hmem
  split at heq
  next hkey => exact absurd (by rw [← heq, hkey]) hne
  next => exact heq ▸ hold

theorem mem_normalizeOpArgs (hmem : entry ∈ normalizeOpArgs tables args)
    (hkey : entry.1 ∉ idArgKeys) : entry ∈ args := by
  simp only [idArgKeys, mem_cons, not_mem_nil, or_false, not_or] at hkey
  obtain ⟨hid, htarget, hsource, hto, hfrom⟩ := hkey
  simp only [normalizeOpArgs, idArgKeys, foldl_cons] at hmem
  exact mem_updateArg (mem_updateArg (mem_updateArg (mem_updateArg (mem_updateArg hmem hfrom) hto)
    hsource) htarget) hid

/-- A default that is written under a condition. -/
theorem mem_orInsertArg_if {p : Prop} [Decidable p]
    (hmem : entry ∈ if p then orInsertArg key value args else args) :
    entry = (key, value) ∨ entry ∈ args := by
  split at hmem
  · exact mem_orInsertArg hmem
  · exact .inr hmem

/-- An argument that names no node stands there as it was written, or is
one of the defaults. -/
theorem mem_canonicalArgs {op : ParsedOp} (hmem : entry ∈ canonicalArgs tables op)
    (hkey : entry.1 ∉ idArgKeys) : entry ∈ op.args ∨ entry.2 ∈ ["private", "none", "true"] := by
  unfold canonicalArgs markInfer materializeDefaults at hmem
  rcases mem_orInsertArg_if hmem with rfl | hmem
  · exact .inr (by simp)
  split at hmem
  · rcases mem_orInsertArg_if hmem with rfl | hmem
    · exact .inr (by simp)
    · rcases mem_orInsertArg_if hmem with rfl | hmem
      · exact .inr (by simp)
      · exact .inl (mem_normalizeOpArgs tables hmem hkey)
  · exact .inl (mem_normalizeOpArgs tables hmem hkey)

/-! ## Where bodies come from -/

/-- The text a payload writes into a body. -/
def OpPayload.body? : OpPayload → Option String
  | .createNode node => node.bodyExpr
  | .setBodyByName _ body => some body
  | .setMetadataByName _ key value => if key = "body" then some value else none
  | _ => none

theorem mem_of_lookup (h : args.lookup key = some value) : (key, value) ∈ args := by
  obtain ⟨front, back, rfl, -⟩ := lookup_eq_some_iff.1 h
  exact mem_append_right _ (.head _)

/-- The text is the value of an argument that names no node. -/
def WrittenIn (args : OpArgs) (body : String) : Prop :=
  ∃ key, key ∉ idArgKeys ∧ (key, body) ∈ args

theorem orNoop_body?_map {found : Option α} {payload : α → OpPayload}
    (hbody : (orNoop (found.map payload)).body? = some body) :
    ∃ a, found = some a ∧ (payload a).body? = some body := by
  cases found with
  | none => cases hbody
  | some a => exact ⟨a, rfl, hbody⟩

theorem targetAnd_eq_some (h : targetAnd args key = some (target, value)) :
    args.lookup key = some value := by
  obtain ⟨_, -, h⟩ := Option.bind_eq_some_iff.1 h
  obtain ⟨_, hvalue, heq⟩ := Option.map_eq_some_iff.1 h
  cases heq
  exact hvalue

theorem metadataPayload_body (hbody : (metadataPayload args).body? = some body) :
    WrittenIn args body := by
  unfold metadataPayload at hbody
  cases htarget : args.lookup "target" with
  | none => rw [htarget] at hbody; exact nomatch hbody
  | some target =>
    rw [htarget] at hbody
    obtain ⟨entry, hentry, hbody⟩ := orNoop_body?_map hbody
    unfold OpPayload.body? at hbody
    dsimp only at hbody
    split at hbody
    next hkey =>
      cases hbody
      exact ⟨"body", by decide, hkey ▸ mem_of_find?_eq_some hentry⟩
    next => exact nomatch hbody

theorem setPayload_body (hbody : (setPayload verb args).body? = some body) :
    WrittenIn args body := by
  unfold setPayload at hbody
  split at hbody
  · obtain ⟨_, -, hbody⟩ := orNoop_body?_map hbody
    cases hbody
  split at hbody
  · obtain ⟨⟨target, text⟩, htarget, hbody⟩ := orNoop_body?_map hbody
    cases hbody
    exact ⟨"body", by decide, mem_of_lookup (targetAnd_eq_some htarget)⟩
  · exact metadataPayload_body hbody

theorem createPayload_body {idx : Nat}
    (hbody : (createPayload digests idx verb args).body? = some body) : WrittenIn args body := by
  unfold createPayload at hbody
  split at hbody
  · obtain ⟨_, -, hbody⟩ := orNoop_body?_map hbody
    cases hbody
  split at hbody
  · obtain ⟨_, -, hbody⟩ := orNoop_body?_map hbody
    cases hbody
  split at hbody
  · obtain ⟨_, -, hbody⟩ := orNoop_body?_map hbody
    exact ⟨"body", by decide, mem_of_lookup hbody⟩
  split at hbody
  · obtain ⟨_, -, hbody⟩ := orNoop_body?_map hbody
    exact ⟨"body", by decide, mem_of_lookup hbody⟩
  split at hbody
  · obtain ⟨_, -, hbody⟩ := orNoop_body?_map hbody
    cases hbody
  · cases hbody

theorem addPayload_body? (verb : String) (args : OpArgs) : (addPayload verb args).body? = none := by
  unfold addPayload
  split
  · split <;> rfl
  split
  · cases targetAnd args "effect" <;> rfl
  split
  · split <;> rfl
  · rfl

theorem removePayload_body? (verb : String) (args : OpArgs) :
    (removePayload verb args).body? = none := by
  unfold removePayload
  split
  · cases targetAnd args "effect" <;> rfl
  split
  · cases targetAnd args "rule" <;> rfl
  split
  · cases args.lookup "target" <;> rfl
  · rfl

theorem edgePayload_body? (args : OpArgs) (remove : Bool) :
    (edgePayload args remove).body? = none := by
  unfold edgePayload
  split
  · split <;> rfl
  · rfl

theorem annotatePayload_body (hbody : (annotatePayload args).body? = some body) :
    WrittenIn args body := by
  unfold annotatePayload at hbody
  split at hbody
  next target key value _ _ hvalue =>
    unfold OpPayload.body? at hbody
    dsimp only at hbody
    split at hbody
    · cases hbody
      exact ⟨"value", by decide, mem_of_lookup hvalue⟩
    · cases hbody
  next => exact nomatch hbody

theorem orNoop_map_body? (found : Option α) {payload : α → OpPayload}
    (hnone : ∀ a, (payload a).body? = none) : (orNoop (found.map payload)).body? = none := by
  cases found with
  | none => rfl
  | some a => exact hnone a

theorem materializePayload_body {idx : Nat} {kind : ChangeSetOp}
    (hbody : (materializePayload digests idx kind verb args).body? = some body) :
    WrittenIn args body := by
  cases kind with
  | create => exact createPayload_body digests hbody
  | set => exact setPayload_body hbody
  | replace => exact metadataPayload_body hbody
  | annotate => exact annotatePayload_body hbody
  | add => rw [materializePayload, addPayload_body?] at hbody; exact nomatch hbody
  | remove => rw [materializePayload, removePayload_body?] at hbody; exact nomatch hbody
  | connect | disconnect => rw [materializePayload, edgePayload_body?] at hbody; exact nomatch hbody
  | bind =>
    simp only [materializePayload, bindPayload] at hbody
    split at hbody <;> exact nomatch hbody
  | _ =>
    -- None of the others has a body to write.
    refine absurd hbody ?_
    simp only [materializePayload, workflowPayload]
    rw [orNoop_map_body? _ fun _ => rfl]
    exact fun h => nomatch h

/-! ## Bodies along an application -/

theorem mem_replaceF {values : List α} {update : α → Option α} {value : α}
    (hmem : value ∈ values.replaceF update) :
    value ∈ values ∨ ∃ old ∈ values, update old = some value := by
  rcases exists_or_eq_self_of_replaceF update values with
    heq | ⟨old, new, front, back, -, hupdate, rfl, heq⟩ <;> rw [heq] at hmem
  · exact .inl hmem
  · rcases mem_append.1 hmem with hmem | hmem
    · exact .inl (mem_append_left _ hmem)
    · rcases mem_cons.1 hmem with rfl | hmem
      · exact .inr ⟨old, by simp, hupdate⟩
      · exact .inl (by simp [hmem])

/-- Every body in the graph satisfies the predicate. -/
def Bodies (P : String → Prop) (graph : SemanticGraph) : Prop :=
  ∀ node ∈ graph.nodes, ∀ body, node.bodyExpr = some body → P body

theorem Bodies.replaceIf (bodies : Bodies P graph) {p : GraphNode → Prop} [DecidablePred p]
    {update : GraphNode → GraphNode} (hupdate : ∀ node body, (update node).bodyExpr = some body →
      P body ∨ node.bodyExpr = some body) :
    Bodies P { graph with
      nodes := graph.nodes.replaceF fun node => if p node then some (update node) else none } := by
  intro node hmem body hbody
  rcases mem_replaceF hmem with hmem | ⟨old, hold, heq⟩
  · exact bodies node hmem body hbody
  · split at heq
    · cases heq
      rcases hupdate old body hbody with hP | hold'
      · exact hP
      · exact bodies old hold body hold'
    · cases heq

theorem Bodies.removeNode (bodies : Bodies P graph) (nodeId : NodeRef) :
    Bodies P (removeNode nodeId graph) :=
  fun node hmem => bodies node (mem_filter.1 hmem).1

theorem Bodies.applyPayload (bodies : Bodies P graph) {payload : OpPayload}
    (hpayload : ∀ body, payload.body? = some body → P body) :
    Bodies P (applyPayload payload graph) := by
  cases payload with
  | createNode node =>
    exact forall_mem_append.2 ⟨bodies, forall_mem_singleton.2 hpayload⟩
  | removeNode nodeId => exact bodies.removeNode nodeId
  | removeNodeByName name =>
    unfold Change.applyPayload
    dsimp only
    split
    · exact bodies.removeNode _
    · exact bodies
  | setNodeName nodeId name =>
    exact bodies.replaceIf fun node body hbody => .inr hbody
  | addEdgeByName source target kind | removeEdgeByName source target kind =>
    unfold Change.applyPayload
    dsimp only
    split
    · exact bodies
    · exact bodies
  | setBodyByName target text =>
    refine bodies.replaceIf fun node body hbody => .inl (hpayload body ?_)
    exact hbody
  | setMetadataByName target key value =>
    refine bodies.replaceIf fun node body hbody => ?_
    unfold setNodeMetadata at hbody
    split at hbody
    · exact .inr hbody
    · exact .inr hbody
    · exact .inl (hpayload body hbody)
    · exact .inr hbody
  | addEdge | noop => exact bodies
  | _ => exact bodies.replaceIf fun node body hbody => .inr hbody

/-- The bodies of the graph an application leaves come from the graph it
started with or from its ops. -/
theorem applyOps_bodies {graph' : SemanticGraph} (bodies : Bodies P graph)
    (hops : ∀ op ∈ ops, ∀ body, op.payload.body? = some body → P body)
    (happly : applyOps graph ops = .ok graph') : Bodies P graph' := by
  induction ops generalizing graph with
  | nil => cases happly; exact bodies
  | cons op ops ih =>
    unfold applyOps at happly
    split at happly
    · cases happly
    · exact ih (bodies.applyPayload (hops op (.head _)))
        (fun op hmem => hops op (.tail _ hmem)) happly

/-! ## Bodies of canonical ops -/

theorem mem_sortByPhase {ops : List ParsedOp} {op : ParsedOp} : op ∈ sortByPhase ops ↔ op ∈ ops :=
  (perm_insertionSort _ ops).mem_iff

theorem expandOne_body {extra : List CanonicalOp}
    (hextra : ∀ other ∈ extra, other.payload.body? = none) :
    ∀ other ∈ expandOne digests ops extra op, other.payload.body? = none := by
  have happend : ∀ {extra : List CanonicalOp} {new : CanonicalOp},
      (∀ other ∈ extra, other.payload.body? = none) → new.payload.body? = none →
        ∀ other ∈ extra ++ [new], other.payload.body? = none :=
    fun hextra hnew => forall_mem_append.2 ⟨hextra, forall_mem_singleton.2 hnew⟩
  unfold expandOne
  split
  · exact hextra
  · dsimp only
    split
    · split
      · exact happend (happend hextra rfl) rfl
      · exact happend hextra rfl
    · split
      · exact happend hextra rfl
      · exact hextra

theorem mem_expandInferBoundary (hmem : op ∈ expandInferBoundary digests ops) :
    op ∈ ops ∨ op.payload.body? = none := by
  rcases mem_append.1 hmem with hmem | hmem
  · exact .inl hmem
  · refine .inr (List.foldlRecOn _ _ (motive := fun (extra : List CanonicalOp) =>
      ∀ other ∈ extra, other.payload.body? = none) (by simp)
      (fun extra hextra next _ => ?_) op hmem)
    exact expandOne_body digests hextra

/-- The body of a canonical op is a value of the op it comes from. -/
theorem canonicalOps_body {ops : List ParsedOp} (hmem : op ∈ canonicalOps tables digests ops)
    (hbody : op.payload.body? = some body) :
    (∃ parsed ∈ ops, ∃ key, (key, body) ∈ parsed.args) ∨ body ∈ ["private", "none", "true"] := by
  rcases mem_expandInferBoundary digests hmem with hmem | hnone
  · obtain ⟨idx, hlt, heq⟩ := mem_mapIdx.1 hmem
    rw [← heq] at hbody
    obtain ⟨key, hkey, hentry⟩ := materializePayload_body digests hbody
    rcases mem_canonicalArgs tables hentry hkey with hentry | hdefault
    · exact .inl ⟨_, mem_sortByPhase.1 (getElem_mem hlt), key, hentry⟩
    · exact .inr hdefault
  · rw [hnone] at hbody
    cases hbody

theorem migrateOp_oneLine {verbs : List (String × String)} {oldKey newKey : String} {op : ParsedOp}
    (honeLine : OneLine op) : OneLine (migrateOp verbs oldKey newKey op) := by
  intro entry hmem
  unfold migrateOp at hmem
  split at hmem
  next value hvalue =>
    rcases mem_orInsertArg hmem with rfl | hmem
    · exact honeLine (oldKey, value) (mem_of_lookup hvalue)
    · exact honeLine entry (mem_filter.1 hmem).1
  next => exact honeLine entry (mem_filter.1 hmem).1

theorem runMigrationChain_oneLine {steps : Nat} {pcs pcs' : ParsedChangeSet}
    (honeLine : ∀ op ∈ pcs.parsedOps, OneLine op)
    (hrun : runMigrationChain target steps pcs = .ok pcs') : ∀ op ∈ pcs'.parsedOps, OneLine op := by
  induction steps generalizing pcs with
  | zero =>
    unfold runMigrationChain at hrun
    split at hrun
    · cases hrun; exact honeLine
    · cases hrun
  | succ steps ih =>
    unfold runMigrationChain at hrun
    split at hrun
    · cases hrun; exact honeLine
    · cases hfind : migratorChain.find? (·.1 = pcs.aclVersion) with
      | none => rw [hfind] at hrun; exact nomatch hrun
      | some entry =>
        rw [hfind] at hrun
        refine ih (fun op hmem => ?_) hrun
        obtain ⟨old, hold, rfl⟩ := mem_map.1 hmem
        have hchain := mem_of_find?_eq_some hfind
        simp only [migratorChain, mem_cons, not_mem_nil, or_false] at hchain
        rcases hchain with rfl | rfl <;> exact migrateOp_oneLine (honeLine old hold)

/-- Whatever the document, the bodies it writes are single lines. -/
theorem tryCanonicalizeParsed_bodies {parsed : ParsedChangeSet} {canonical : CanonicalChangeSet}
    (honeLine : ∀ op ∈ parsed.parsedOps, OneLine op)
    (hcanonical : tryCanonicalizeParsed tables digests parsed = .ok canonical) :
    ∀ op ∈ canonical.ops, ∀ body, op.payload.body? = some body → '\n' ∉ body.toList := by
  unfold tryCanonicalizeParsed at hcanonical
  cases hrun : runMigrationChain currentAclVersion migratorChain.length parsed with
  | error version => rw [hrun] at hcanonical; exact nomatch hcanonical
  | ok migrated =>
    rw [hrun] at hcanonical
    cases hcanonical
    intro op hmem body hbody
    rcases canonicalOps_body tables digests hmem hbody with ⟨source, hsource, key,
      hentry⟩ | hdefault
    · exact runMigrationChain_oneLine honeLine hrun source hsource _ hentry
    · simp only [mem_cons, not_mem_nil, or_false] at hdefault
      rcases hdefault with rfl | rfl | rfl <;> decide

end Ail.Change
