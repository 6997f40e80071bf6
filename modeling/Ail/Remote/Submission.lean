import Ail.Coordinator.Submit
import Ail.Lib.Outcome

/-!
# Signed remote submissions

A `RemoteChangeSet` is a changeset with the identity of the agent that
sent it and a signature. `Coordinator::verify_remote_submission` checks
the signature against the payload it builds from the changeset, checks
the agent's key against the allowlist, and submits the changeset like a
local one.

The payload covers the base snapshot id and the ops. What an application
reads of a changeset is the base, the ops AND the preconditions, so two
envelopes under one signature agree exactly when their preconditions do.

Ed25519 and the CBOR codec are parameters (`ail-remote`, `signing.rs`,
`identity.rs`).
-/

namespace Ail.Remote

open Ail.Core Change Coordinator Lib

abbrev Bytes := List UInt8

/-! ## Envelopes -/

/-- Only `publicKey` carries authority; the label is free text. -/
structure AgentIdentity where
  publicKey : Vector UInt8 32
  label : Option String

structure RemoteChangeSet where
  changeset : CanonicalChangeSet
  agent : AgentIdentity
  signature : Vector UInt8 64

inductive SigningError where
  | signatureInvalid
  | serializationError (message : String)
  deriving DecidableEq

/-- The third-party code a verification runs: the CBOR encodings of an op
list and of the payload pair, and Ed25519 verification, which answers
`false` for key bytes that are no key. -/
structure Crypto where
  encodeOps : List CanonicalOp → Except String Bytes
  encodePair : Bytes × Bytes → Except String Bytes
  verifies : Vector UInt8 32 → Bytes → Vector UInt8 64 → Bool

/-- The `count` little-endian bytes of a number. -/
def leBytes : Nat → Nat → Bytes
  | 0, _ => []
  | count + 1, value => UInt8.ofNat value :: leBytes count (value / 256)

/-- `u64::to_le_bytes`. -/
def toLeBytes (value : UInt64) : Bytes := leBytes 8 value.toNat

variable (crypto : Crypto)

def signingPayload (cs : CanonicalChangeSet) : Except SigningError Bytes := do
  let opsCbor ← (crypto.encodeOps cs.ops).mapError .serializationError
  let baseSnapshotIdBytes := toLeBytes cs.baseSnapshotId.val
  (crypto.encodePair (baseSnapshotIdBytes, opsCbor)).mapError .serializationError

def AgentIdentity.verifyBytes (identity : AgentIdentity) (payload : Bytes)
    (signature : Vector UInt8 64) : Except SigningError Unit :=
  if crypto.verifies identity.publicKey payload signature then .ok () else .error .signatureInvalid

def RemoteChangeSet.verifySignature (rcs : RemoteChangeSet) : Except SigningError Unit := do
  let payload ← signingPayload crypto rcs.changeset
  rcs.agent.verifyBytes crypto payload rcs.signature

/-! ## The allowlist -/

inductive SignerTrustTier where
  | primary | trusted | external

structure TrustedRemoteSigner where
  publicKey : Vector UInt8 32
  trustTier : SignerTrustTier
  label : Option String

structure RemoteSignerPolicy where
  allowedSigners : List TrustedRemoteSigner := []

inductive RemoteSignerRejectionReason where
  | signerNotAllowed
  deriving DecidableEq

structure RemoteSignerRejection where
  publicKey : Vector UInt8 32
  label : Option String
  reason : RemoteSignerRejectionReason
  deriving DecidableEq

def RemoteSignerPolicy.checkIdentity (policy : RemoteSignerPolicy) (identity : AgentIdentity) :
    Except RemoteSignerRejection TrustedRemoteSigner :=
  match policy.allowedSigners.find? (·.publicKey = identity.publicKey) with
  | some signer => .ok signer
  | none => .error ⟨identity.publicKey, identity.label, .signerNotAllowed⟩

/-! ## The remote entry point of the coordinator -/

inductive RemoteError where
  | signatureInvalid
  | signerRejected (rejection : RemoteSignerRejection)
  | coordinatorFailed (reason : String)
  deriving DecidableEq

variable (nodeHash : GraphNode → BlockHash)

/-- A failed application is an error of the submission; every other
outcome of `submit`, a conflict included, is its result. -/
def submitRemote (state : CoordinatorState) (cs : CanonicalChangeSet) :
    CoordinatorState × Except RemoteError CoordinatorOutcome :=
  match submit nodeHash state cs with
  | (state, .failed reason) => (state, .error (.coordinatorFailed reason))
  | (state, outcome) => (state, .ok outcome)

def verifyRemoteSubmission (policy : RemoteSignerPolicy) (state : CoordinatorState)
    (rcs : RemoteChangeSet) : CoordinatorState × Except RemoteError CoordinatorOutcome :=
  match rcs.verifySignature crypto with
  | .error _ => (state, .error .signatureInvalid)
  | .ok () =>
    match policy.checkIdentity rcs.agent with
    | .error rejection => (state, .error (.signerRejected rejection))
    | .ok _ => submitRemote nodeHash state rcs.changeset

/-! ## What the signature fixes -/

/-- The assumptions on the third-party code: a signature verifies under a
key for one payload at most, and both encodings are injective. -/
structure Crypto.Sound : Prop where
  one_payload : ∀ key payload payload' signature,
    crypto.verifies key payload signature → crypto.verifies key payload' signature →
      payload = payload'
  encodeOps_injective : ∀ ops ops' bytes,
    crypto.encodeOps ops = .ok bytes → crypto.encodeOps ops' = .ok bytes → ops = ops'
  encodePair_injective : ∀ pair pair' bytes,
    crypto.encodePair pair = .ok bytes → crypto.encodePair pair' = .ok bytes → pair = pair'

theorem leBytes_injective {count value value' : Nat} (hvalue : value < 256 ^ count)
    (hvalue' : value' < 256 ^ count) (hbytes : leBytes count value = leBytes count value') :
    value = value' := by
  induction count generalizing value value' with
  | zero => simp only [Nat.pow_zero] at hvalue hvalue'; omega
  | succ count ih =>
    obtain ⟨hlow, hhigh⟩ := List.cons.inj hbytes
    have hmod : value % 256 = value' % 256 := by simpa using congrArg UInt8.toNat hlow
    have hdiv : value / 256 = value' / 256 :=
      ih (Nat.div_lt_of_lt_mul (by rwa [Nat.pow_succ'] at hvalue))
        (Nat.div_lt_of_lt_mul (by rwa [Nat.pow_succ'] at hvalue')) hhigh
    omega

theorem toLeBytes_injective {value value' : UInt64} (hbytes : toLeBytes value = toLeBytes value') :
    value = value' :=
  UInt64.toNat.inj (leBytes_injective value.toNat_lt value'.toNat_lt hbytes)

variable {cs : CanonicalChangeSet} {state : CoordinatorState}

/-- What a payload is made of. -/
theorem signingPayload_eq_ok {payload : Bytes} (hpayload : signingPayload crypto cs = .ok payload) :
    ∃ opsCbor, crypto.encodeOps cs.ops = .ok opsCbor ∧
      crypto.encodePair (toLeBytes cs.baseSnapshotId.val, opsCbor) = .ok payload := by
  obtain ⟨opsCbor, hops, hpair⟩ := bind_eq_ok.1 hpayload
  exact ⟨opsCbor, mapError_eq_ok.1 hops, mapError_eq_ok.1 hpair⟩

variable {rcs : RemoteChangeSet}

theorem verifySignature_eq_ok (hverified : rcs.verifySignature crypto = .ok ()) :
    ∃ payload, signingPayload crypto rcs.changeset = .ok payload ∧
      crypto.verifies rcs.agent.publicKey payload rcs.signature := by
  obtain ⟨payload, hpayload, hbytes⟩ := bind_eq_ok.1 hverified
  refine ⟨payload, hpayload, ?_⟩
  by_contra hfalse
  simp [AgentIdentity.verifyBytes, hfalse] at hbytes

variable {crypto}

/-- Two changesets that pass under one key and one signature have the
same base and the same ops. Nothing else of them is signed. -/
theorem Crypto.Sound.signed_eq (sound : crypto.Sound) {rcs' : RemoteChangeSet}
    (hkey : rcs.agent.publicKey = rcs'.agent.publicKey)
    (hsignature : rcs.signature = rcs'.signature) (hverified : rcs.verifySignature crypto = .ok ())
    (hverified' : rcs'.verifySignature crypto = .ok ()) :
    rcs.changeset.baseSnapshotId = rcs'.changeset.baseSnapshotId ∧
      rcs.changeset.ops = rcs'.changeset.ops := by
  obtain ⟨payload, hpayload, hverifies⟩ := verifySignature_eq_ok crypto hverified
  obtain ⟨payload', hpayload', hverifies'⟩ := verifySignature_eq_ok crypto hverified'
  rw [← hkey, ← hsignature] at hverifies'
  obtain rfl := sound.one_payload _ _ _ _ hverifies hverifies'
  obtain ⟨opsCbor, hops, hpair⟩ := signingPayload_eq_ok crypto hpayload
  obtain ⟨opsCbor', hops', hpair'⟩ := signingPayload_eq_ok crypto hpayload'
  obtain ⟨hbase, rfl⟩ := Prod.mk.inj (sound.encodePair_injective _ _ _ hpair hpair')
  refine ⟨?_, sound.encodeOps_injective _ _ _ hops hops'⟩
  have := toLeBytes_injective hbase
  cases h : rcs.changeset.baseSnapshotId
  cases h' : rcs'.changeset.baseSnapshotId
  simp_all

/-! ## What a submission reads beside it -/

variable (crypto)

/-- The first precondition of a changeset that fails, as the reason given. -/
def failedPrecondition (graph : SemanticGraph) (cs : CanonicalChangeSet) : Option String :=
  cs.preconditions.findSome? (evaluatePrecondition nodeHash graph)

/-- A stale changeset that names a ref of the last commit is answered
with a conflict before anything else of it is read. -/
def ConflictsOnRebase (state : CoordinatorState) (cs : CanonicalChangeSet) : Prop :=
  cs.baseSnapshotId ≠ state.liveId ∧
    ¬ Disjoint (StructuralDiff.fromOps cs.ops).touchedNodes state.committedDiff.touchedNodes

/-- What an application makes of the ops, once the preconditions hold. -/
def attempt (graph : SemanticGraph) (failed : Option String) (ops : List CanonicalOp) :
    Except String SemanticGraph :=
  match failed with
  | some reason => .error reason
  | none => applyOps graph ops

/-- What a commit is answered with. -/
def commitAnswer (state : CoordinatorState) (base : SnapshotId) : CoordinatorOutcome :=
  if base = state.liveId then .applied (advance state.liveId)
  else .rebaseApplied state.liveId (advance state.liveId)

/-- The answer to a remote submission, from what became of its ops. -/
def settle (state : CoordinatorState) (base : SnapshotId) (ops : List CanonicalOp) :
    Except String SemanticGraph → CoordinatorState × Except RemoteError CoordinatorOutcome
  | .ok graph =>
    (⟨graph, advance state.liveId, .fromOps ops, extractRemovedNodes ops⟩,
      .ok (commitAnswer state base))
  | .error reason => (state, .error (.coordinatorFailed reason))

theorem apply_rebasedOnto (liveId : SnapshotId) (cs : CanonicalChangeSet) (graph : SemanticGraph) :
    apply nodeHash liveId (rebasedOnto liveId cs) graph =
      match attempt graph (failedPrecondition nodeHash graph cs) cs.ops with
      | .ok graph' => (.applied, graph')
      | .error reason => (.failed reason, graph) := by
  simp only [apply, rebasedOnto, failedPrecondition, ne_eq]
  cases cs.preconditions.findSome? (evaluatePrecondition nodeHash graph) with
  | some reason => rfl
  | none =>
    simp only [attempt]
    cases applyOps graph cs.ops <;> rfl

/-- A submission that is not answered with a conflict depends on the
preconditions through the first failing one only. -/
theorem submitRemote_of_compared (hcompared : ¬ ConflictsOnRebase state cs) :
    submitRemote nodeHash state cs =
      settle state cs.baseSnapshotId cs.ops
        (attempt state.graph (failedPrecondition nodeHash state.graph cs) cs.ops) := by
  have happly := apply_rebasedOnto nodeHash state.liveId cs state.graph
  by_cases hbase : cs.baseSnapshotId = state.liveId
  · rw [rebasedOnto_self hbase] at happly
    simp only [submitRemote, submit, hbase, applyAndCommit, happly]
    cases attempt state.graph (failedPrecondition nodeHash state.graph cs) cs.ops <;>
      simp [settle, commitAnswer]
  · have hdisjoint : Disjoint (StructuralDiff.fromOps cs.ops).touchedNodes
        state.committedDiff.touchedNodes := by
      by_contra hmeet
      exact hcompared ⟨hbase, hmeet⟩
    simp only [submitRemote, submit, rebase_of_disjoint hdisjoint, applyAndCommit, happly]
    cases attempt state.graph (failedPrecondition nodeHash state.graph cs) cs.ops <;>
      simp [settle, commitAnswer, hbase, rebasedOnto]

/-- A conflict is decided by the base and the ops. -/
theorem submitRemote_of_conflict (hconflict : ConflictsOnRebase state cs) :
    submitRemote nodeHash state cs =
      (state, .ok (.conflictIrresolvable (classifyConflict
        ((StructuralDiff.fromOps cs.ops).touchedNodes ∩ state.committedDiff.touchedNodes)
        state.committedRemoves))) := by
  obtain ⟨hbase, hmeet⟩ := hconflict
  simp [submitRemote, submit, hbase, rebase_of_not_disjoint hmeet]

variable {graph : SemanticGraph} {ops : List CanonicalOp} {reason : String}

/-- The reason of a failed precondition is told from the reason of a
failed op by its first letter. -/
theorem evaluatePrecondition_head {precondition : Precondition}
    (hfails : evaluatePrecondition nodeHash graph precondition = some reason) :
    reason.toList.head? = some 'A' := by
  cases precondition <;> simp only [evaluatePrecondition] at hfails <;> repeat' split at hfails
  all_goals
    cases hfails
    try simp

theorem applyOps_head (hfails : applyOps graph ops = .error reason) :
    reason.toList.head? = some 'g' := by
  induction ops generalizing graph with
  | nil => cases hfails
  | cons op ops ih =>
    simp only [applyOps] at hfails
    split at hfails
    · cases hfails
      simp
    · exact ih hfails

theorem attempt_inj {cs' : CanonicalChangeSet}
    (hattempt : attempt graph (failedPrecondition nodeHash graph cs) ops =
      attempt graph (failedPrecondition nodeHash graph cs') ops) :
    failedPrecondition nodeHash graph cs = failedPrecondition nodeHash graph cs' := by
  have hhead : ∀ {cs : CanonicalChangeSet} {reason : String},
      failedPrecondition nodeHash graph cs = some reason → reason.toList.head? = some 'A' := by
    intro cs reason hfailed
    obtain ⟨precondition, -, hfails⟩ := List.exists_of_findSome?_eq_some hfailed
    exact evaluatePrecondition_head nodeHash hfails
  cases hfailed : failedPrecondition nodeHash graph cs with
  | some reason =>
    cases hfailed' : failedPrecondition nodeHash graph cs' with
    | some reason' =>
      rw [hfailed, hfailed'] at hattempt
      exact congrArg some (Except.error.inj hattempt)
    | none =>
      rw [hfailed, hfailed'] at hattempt
      have hops := applyOps_head hattempt.symm
      simp [hhead hfailed] at hops
  | none =>
    cases hfailed' : failedPrecondition nodeHash graph cs' with
    | some reason' =>
      rw [hfailed, hfailed'] at hattempt
      have hops := applyOps_head hattempt
      simp [hhead hfailed'] at hops
    | none => rfl

/-- Outcome and graph of a settled submission tell what became of the ops. -/
theorem settle_inj {base : SnapshotId} {result result' : Except String SemanticGraph}
    (houtcome : (settle state base ops result).2 = (settle state base ops result').2)
    (hgraph : (settle state base ops result).1.graph = (settle state base ops result').1.graph) :
    result = result' := by
  cases result <;> cases result' <;> simp_all [settle]

theorem verifyRemoteSubmission_of_passes {policy : RemoteSignerPolicy}
    {signer : TrustedRemoteSigner} (state : CoordinatorState)
    (hverified : rcs.verifySignature crypto = .ok ())
    (hallowed : policy.checkIdentity rcs.agent = .ok signer) :
    verifyRemoteSubmission crypto nodeHash policy state rcs =
      submitRemote nodeHash state rcs.changeset := by
  simp [verifyRemoteSubmission, hverified, hallowed]

/-- Two envelopes with one key and one signature, both verified and
allowed, have the same outcome and leave the same graph exactly when the
submission conflicts on its rebase or the first failing precondition of
both, if any, is reported alike. -/
theorem verifyRemoteSubmission_eq_iff (sound : crypto.Sound) (policy : RemoteSignerPolicy)
    (state : CoordinatorState) (rcs rcs' : RemoteChangeSet)
    (hkey : rcs.agent.publicKey = rcs'.agent.publicKey)
    (hsignature : rcs.signature = rcs'.signature)
    (hverified : rcs.verifySignature crypto = .ok ())
    (hverified' : rcs'.verifySignature crypto = .ok ())
    (hallowed : ∃ signer, policy.checkIdentity rcs.agent = .ok signer)
    (hallowed' : ∃ signer, policy.checkIdentity rcs'.agent = .ok signer) :
    let first := verifyRemoteSubmission crypto nodeHash policy state rcs
    let second := verifyRemoteSubmission crypto nodeHash policy state rcs'
    (first.2 = second.2 ∧ first.1.graph = second.1.graph) ↔
      ConflictsOnRebase state rcs.changeset ∨
        failedPrecondition nodeHash state.graph rcs.changeset =
          failedPrecondition nodeHash state.graph rcs'.changeset := by
  intro first second
  obtain ⟨hbase, hops⟩ := sound.signed_eq hkey hsignature hverified hverified'
  obtain ⟨_, hallowed⟩ := hallowed
  obtain ⟨_, hallowed'⟩ := hallowed'
  have hfirst : first = submitRemote nodeHash state rcs.changeset :=
    verifyRemoteSubmission_of_passes crypto nodeHash state hverified hallowed
  have hsecond : second = submitRemote nodeHash state rcs'.changeset :=
    verifyRemoteSubmission_of_passes crypto nodeHash state hverified' hallowed'
  have hsame : ConflictsOnRebase state rcs.changeset ↔ ConflictsOnRebase state rcs'.changeset := by
    simp [ConflictsOnRebase, hbase, hops]
  rw [hfirst, hsecond]
  by_cases hconflict : ConflictsOnRebase state rcs.changeset
  · refine iff_of_true ?_ (.inl hconflict)
    rw [submitRemote_of_conflict nodeHash hconflict,
      submitRemote_of_conflict nodeHash (hsame.1 hconflict), hops]
    exact ⟨rfl, rfl⟩
  · rw [submitRemote_of_compared nodeHash hconflict,
      submitRemote_of_compared nodeHash (mt hsame.2 hconflict), ← hbase, ← hops]
    constructor
    · rintro ⟨houtcome, hgraph⟩
      exact .inr (attempt_inj nodeHash (settle_inj houtcome hgraph))
    · rintro (h | hfailed)
      · exact absurd h hconflict
      · rw [hfailed]
        exact ⟨rfl, rfl⟩

/-! ## A stripped precondition -/

/-- A codec for one op list, and a key that has signed one payload. -/
def signedOnce (signedOps : List CanonicalOp) (signed : Bytes) : Crypto where
  encodeOps ops := if ops = signedOps then .ok [] else .error "unsupported ops"
  encodePair pair := if pair.1.length = 8 then .ok (pair.1 ++ pair.2) else .error "unsupported pair"
  verifies _ payload _ := payload = signed

theorem signedOnce_sound (signedOps : List CanonicalOp) (signed : Bytes) :
    (signedOnce signedOps signed).Sound where
  one_payload := by
    intro key payload payload' signature hfirst hsecond
    simp only [signedOnce, decide_eq_true_eq] at hfirst hsecond
    rw [hfirst, hsecond]
  encodeOps_injective := by
    intro ops ops' bytes hops hops'
    simp only [signedOnce] at hops hops'
    split at hops <;> split at hops' <;> simp_all
  encodePair_injective := by
    rintro ⟨base, ops⟩ ⟨base', ops'⟩ bytes hpair hpair'
    simp only [signedOnce] at hpair hpair'
    split at hpair <;> split at hpair' <;> try contradiction
    rename_i hlength hlength'
    have happend : base ++ ops = base' ++ ops' :=
      (Except.ok.inj hpair).trans (Except.ok.inj hpair').symm
    obtain ⟨rfl, rfl⟩ := List.append_inj happend (hlength.trans hlength'.symm)
    rfl

/-- An agent that creates a module only if `fn.main` exists. -/
def guardedCreation : RemoteChangeSet where
  changeset :=
    { baseSnapshotId := ⟨0⟩
      preconditions := [.assertExistsByName "fn.main"]
      ops := [{ payload := .createNode { id := ⟨1⟩, kind := .module, name := "m" } }] }
  agent := ⟨Vector.replicate 32 7, none⟩
  signature := Vector.replicate 64 9

/-- The same envelope, with the precondition taken out on the way. -/
def strippedCreation : RemoteChangeSet :=
  { guardedCreation with changeset := { guardedCreation.changeset with preconditions := [] } }

def creationCrypto : Crypto := signedOnce guardedCreation.changeset.ops (List.replicate 8 0)

def creationPolicy : RemoteSignerPolicy := ⟨[⟨Vector.replicate 32 7, .trusted, none⟩]⟩

/-- The envelope as signed is refused by the empty graph; stripped of its
precondition it still verifies, and the module is created. -/
theorem strippedCreation_applied :
    guardedCreation.verifySignature creationCrypto = .ok () ∧
    strippedCreation.verifySignature creationCrypto = .ok () ∧
    (verifyRemoteSubmission creationCrypto (fun _ => ⟨[]⟩) creationPolicy (.new ⟨0⟩ .empty)
        guardedCreation).2 =
      .error (.coordinatorFailed "AssertExists failed: node 'fn.main' not found in graph") ∧
    (verifyRemoteSubmission creationCrypto (fun _ => ⟨[]⟩) creationPolicy (.new ⟨0⟩ .empty)
        strippedCreation).2 = .ok (.applied ⟨1⟩) ∧
    (verifyRemoteSubmission creationCrypto (fun _ => ⟨[]⟩) creationPolicy (.new ⟨0⟩ .empty)
        strippedCreation).1.graph.nodes.map (·.name) = ["m"] := by
  decide +kernel

/-- A relabelled envelope has the effect of the original. -/
theorem verifyRemoteSubmission_relabelled :
    let relabelled : RemoteChangeSet :=
      { guardedCreation with agent := { guardedCreation.agent with label := some "other" } }
    let first := verifyRemoteSubmission creationCrypto (fun _ => ⟨[]⟩) creationPolicy
      (.new ⟨0⟩ .empty) guardedCreation
    let second := verifyRemoteSubmission creationCrypto (fun _ => ⟨[]⟩) creationPolicy
      (.new ⟨0⟩ .empty) relabelled
    first.2 = second.2 ∧ first.1.graph = second.1.graph :=
  (verifyRemoteSubmission_eq_iff creationCrypto (fun _ => ⟨[]⟩)
    (signedOnce_sound _ _) creationPolicy
    (.new ⟨0⟩ .empty) guardedCreation
    { guardedCreation with agent := { guardedCreation.agent with label := some "other" } }
    rfl rfl (by decide +kernel) (by decide +kernel) ⟨_, rfl⟩ ⟨_, rfl⟩).2 (.inr rfl)

end Ail.Remote
