import Ail.Core.Text
import Ail.Lib.FiniteMap

/-!
# Recording and replaying capability calls

`ReplayEngine` (`replay.rs`) keeps the recorded responses in the order
they were recorded, each with the hash of its bytes. `verify` compares a
response with the first recording for a capability and operation; the
handlers look the response up in a map, where the last one has replaced
the others. For a pair that was recorded once the two agree.

The hash comes from another crate and is a parameter.
-/

namespace Ail.Runtime

open Ail.Core Lib List

@[ext]
structure CapabilityId where
  name : String
  deriving DecidableEq

/-! ## Mismatches -/

inductive ReplayMismatchKind where
  | missingRecording
  | hashMismatch

namespace ReplayMismatchKind

def category : ReplayMismatchKind → String
  | missingRecording => "replay.missing_recording"
  | hashMismatch => "replay.hash_mismatch"

def diagnosticKey : ReplayMismatchKind → String
  | missingRecording => "replay.mismatch.missing_recording"
  | hashMismatch => "replay.mismatch.hash_mismatch"

end ReplayMismatchKind

/-- Capability and operation appear only by their shape. -/
structure ReplayVerificationError where
  message : String
  kind : ReplayMismatchKind
  diagnosticKey : String
  category : String
  capability : String
  operationShape : String
  recordedHash : Option String
  actualHash : Option String

def replayCapabilityLabel (capability : CapabilityId) : String :=
  match splitOnce ':' capability.name.toList with
  | some (namespacePart, _) => String.ofList namespacePart ++ ":*"
  | none => capability.name

def httpMethods : List String := ["GET:", "POST:", "PUT:", "PATCH:", "DELETE:", "HEAD:", "OPTIONS:"]

def replayOperationShape (operation : String) : String :=
  if operation.isEmpty then "empty"
  else if startsWith operation "read:" then "keyed.read"
  else if startsWith operation "write:" then "keyed.write"
  else if httpMethods.any (startsWith operation) then "http.request"
  else if operation.toList.contains ':' then "namespaced"
  else "literal"

namespace ReplayVerificationError

def new (kind : ReplayMismatchKind) (capability : CapabilityId) (operation : String)
    (recordedHash actualHash : Option String) : ReplayVerificationError :=
  let label := replayCapabilityLabel capability
  let operationShape := replayOperationShape operation
  let hashes :=
    match recordedHash, actualHash with
    | some recorded, some actual => " recorded_hash=" ++ recorded ++ " actual_hash=" ++ actual
    | _, _ => ""
  { message := "replay verification failed: key=" ++ kind.diagnosticKey ++ " category=" ++
      kind.category ++ " capability=" ++ label ++ " operation_shape=" ++ operationShape ++ hashes
    kind, diagnosticKey := kind.diagnosticKey, category := kind.category
    capability := label, operationShape, recordedHash, actualHash }

def missingRecording (capability : CapabilityId) (operation : String) : ReplayVerificationError :=
  new .missingRecording capability operation none none

def hashMismatch (capability : CapabilityId) (operation recordedHash actualHash : String) :
    ReplayVerificationError :=
  new .hashMismatch capability operation (some recordedHash) (some actualHash)

end ReplayVerificationError

/-- The host errors a replay handler answers with. -/
inductive HostError where
  | handlerUnavailable (message : String)
  | manifestMismatch (message : String)
  deriving DecidableEq

/-! ## The engine -/

structure Recording where
  capability : CapabilityId
  operation : String
  response : List UInt8
  outputHash : String

/-- The recordings in the order they were made. -/
structure ReplayEngine where
  recordings : List Recording

/-- Responses with their recorded hash, by capability name and operation. -/
structure ReplayHandler where
  map : AList fun _ : String × String => List UInt8 × String
  caps : List CapabilityId
  verify : Bool

section

variable (blake3Hex : List UInt8 → String)

namespace ReplayEngine

variable (engine : ReplayEngine)

def record (capability : CapabilityId) (operation : String) (response : List UInt8) :
    ReplayEngine :=
  ⟨engine.recordings ++ [⟨capability, operation, response, blake3Hex response⟩]⟩

def recordedHash (capability : CapabilityId) (operation : String) : Option String :=
  (engine.recordings.find? fun recording =>
    recording.capability = capability ∧ recording.operation = operation).map (·.outputHash)

def verify (capability : CapabilityId) (operation : String) (actualResponse : List UInt8) :
    Except ReplayVerificationError Unit :=
  match engine.recordedHash capability operation with
  | none => .error (.missingRecording capability operation)
  | some recordedHash =>
    let actualHash := blake3Hex actualResponse
    if actualHash ≠ recordedHash then
      .error (.hashMismatch capability operation recordedHash actualHash)
    else .ok ()

/-- The capabilities in the order they were first recorded. -/
def distinctCapabilities : List String → List Recording → List CapabilityId
  | _, [] => []
  | seen, recording :: rest =>
    if recording.capability.name ∈ seen then distinctCapabilities seen rest
    else recording.capability :: distinctCapabilities (recording.capability.name :: seen) rest

def buildHandler (verify : Bool) : ReplayHandler :=
  let caps := distinctCapabilities [] engine.recordings
  { map := insertAll (engine.recordings.map fun recording =>
      ((recording.capability.name, recording.operation),
        (recording.response, recording.outputHash))) ∅
    caps := if caps.isEmpty then [⟨"replay.unregistered"⟩] else caps
    verify }

def intoHandler : ReplayHandler := engine.buildHandler false

def intoVerifyingHandler : ReplayHandler := engine.buildHandler true

end ReplayEngine

def ReplayHandler.handle (handler : ReplayHandler) (capability : CapabilityId) (operation : String)
    (_payload : List UInt8) : Except HostError (List UInt8) :=
  match handler.map.lookup (capability.name, operation) with
  | some (response, recordedHash) =>
    let actualHash := blake3Hex response
    if handler.verify ∧ actualHash ≠ recordedHash then
      .error (.manifestMismatch
        (ReplayVerificationError.hashMismatch capability operation recordedHash actualHash).message)
    else .ok response
  | none => .error (.handlerUnavailable
      (ReplayVerificationError.missingRecording capability operation).message)

/-! ## Histories of recordings -/

structure RecordCall where
  capability : CapabilityId
  operation : String
  response : List UInt8

def RecordCall.IsFor (call : RecordCall) (capability : CapabilityId) (operation : String) : Prop :=
  call.capability = capability ∧ call.operation = operation

instance (call : RecordCall) (capability : CapabilityId) (operation : String) :
    Decidable (call.IsFor capability operation) := inferInstanceAs (Decidable (_ ∧ _))

def ReplayEngine.after (calls : List RecordCall) : ReplayEngine :=
  calls.foldl (fun engine call =>
    engine.record blake3Hex call.capability call.operation call.response) ⟨[]⟩

def RecordCall.recording (call : RecordCall) : Recording :=
  ⟨call.capability, call.operation, call.response, blake3Hex call.response⟩

def firstResponse (calls : List RecordCall) (capability : CapabilityId) (operation : String) :
    Option (List UInt8) :=
  (calls.find? (·.IsFor capability operation)).map (·.response)

def lastResponse (calls : List RecordCall) (capability : CapabilityId) (operation : String) :
    Option (List UInt8) :=
  firstResponse calls.reverse capability operation

variable {blake3Hex}

open ReplayEngine

theorem recordings_after (calls : List RecordCall) :
    (after blake3Hex calls).recordings = calls.map (·.recording blake3Hex) := by
  have hfold : ∀ (calls : List RecordCall) (engine : ReplayEngine),
      (calls.foldl (fun engine call => engine.record blake3Hex call.capability call.operation
        call.response) engine).recordings =
        engine.recordings ++ calls.map (·.recording blake3Hex) := by
    intro calls
    induction calls with
    | nil => exact fun engine => (append_nil _).symm
    | cons call rest ih =>
      intro engine
      rw [foldl_cons, ih, record, append_assoc]
      rfl
  exact hfold calls ⟨[]⟩

variable {operation : String} {calls : List RecordCall} {capability : CapabilityId}

theorem exists_firstResponse (hrecorded : ∃ call ∈ calls, call.IsFor capability operation) :
    ∃ response, firstResponse calls capability operation = some response := by
  obtain ⟨call, hmem, hfor⟩ := hrecorded
  rw [firstResponse, ← Option.isSome_iff_exists, Option.isSome_map, find?_isSome]
  exact ⟨call, hmem, decide_eq_true hfor⟩

theorem recordedHash_after (calls : List RecordCall) (capability : CapabilityId)
    (operation : String) :
    (after blake3Hex calls).recordedHash capability operation =
      (firstResponse calls capability operation).map blake3Hex := by
  rw [recordedHash, recordings_after, find?_map, firstResponse, Option.map_map,
    Option.map_map]
  rfl

theorem lookup_buildHandler (calls : List RecordCall) (capability : CapabilityId)
    (operation : String) (verify : Bool) :
    ((after blake3Hex calls).buildHandler verify).map.lookup
        (capability.name, operation) =
      (lastResponse calls capability operation).map fun response =>
        (response, blake3Hex response) := by
  have hkey : ∀ call : RecordCall, decide ((call.capability.name, call.operation) =
      (capability.name, operation)) = decide (call.IsFor capability operation) := by
    rintro ⟨⟨name⟩, _, _⟩
    simp [RecordCall.IsFor, CapabilityId.ext_iff]
  rw [buildHandler, lookup_insertAll, recordings_after, map_map,
    ← map_reverse, find?_map, AList.lookup_empty, Option.or_none, lastResponse,
    firstResponse, Option.map_map, Option.map_map]
  refine congrArg _ (congrArg (List.find? · calls.reverse) (funext hkey))

/-! ## Replay against verification -/

theorem handle_buildHandler {last : List UInt8}
    (hlast : lastResponse calls capability operation = some last) (verify : Bool)
    (payload : List UInt8) :
    ((after blake3Hex calls).buildHandler verify).handle blake3Hex capability operation
      payload = .ok last := by
  rw [ReplayHandler.handle, lookup_buildHandler, hlast]
  exact if_neg fun hmismatch => hmismatch.2 rfl

theorem verify_after {first : List UInt8}
    (hfirst : firstResponse calls capability operation = some first) (actual : List UInt8) :
    (after blake3Hex calls).verify blake3Hex capability operation actual = .ok () ↔
      blake3Hex first = blake3Hex actual := by
  rw [verify, recordedHash_after, hfirst]
  by_cases heq : blake3Hex actual = blake3Hex first
  · simp [heq]
  · simp [heq, Ne.symm heq]

/-- Both handlers answer a recorded pair with the last response, which
`verify` accepts exactly if it hashes as the first one does. -/
theorem replay_verifies_iff (calls : List RecordCall) (capability : CapabilityId)
    (operation : String) (payload : List UInt8)
    (hrecorded : ∃ call ∈ calls, call.IsFor capability operation) :
    ∃ first last, firstResponse calls capability operation = some first ∧
      lastResponse calls capability operation = some last ∧
      ∀ handler ∈ [(ReplayEngine.after blake3Hex calls).intoHandler,
          (ReplayEngine.after blake3Hex calls).intoVerifyingHandler],
        ∃ bytes, handler.handle blake3Hex capability operation payload = .ok bytes ∧
          ((ReplayEngine.after blake3Hex calls).verify blake3Hex capability operation bytes =
            .ok () ↔
            blake3Hex first = blake3Hex last) := by
  obtain ⟨first, hfirst⟩ := exists_firstResponse hrecorded
  obtain ⟨last, hlast⟩ : ∃ last, lastResponse calls capability operation = some last :=
    exists_firstResponse (by simpa only [mem_reverse] using hrecorded)
  refine ⟨first, last, hfirst, hlast, fun handler hmem => ⟨last, ?_, verify_after hfirst last⟩⟩
  rcases mem_pair.1 hmem with rfl | rfl
  · exact handle_buildHandler hlast false payload
  · exact handle_buildHandler hlast true payload

end

/-- A digest that keeps the bytes. -/
def plainDigest (bytes : List UInt8) : String :=
  String.ofList (bytes.map fun b => Char.ofNat b.toNat)

def readCart (response : List UInt8) : RecordCall :=
  ⟨⟨"database.read:Cart"⟩, "read:Cart:42", response⟩

/-- Two reads of one cart with the same response. -/
theorem replay_verifies_repeated :
    (ReplayEngine.after plainDigest [readCart [1], readCart [1]]).verify plainDigest
      ⟨"database.read:Cart"⟩ "read:Cart:42" [1] = .ok () := by
  obtain ⟨first, last, hfirst, hlast, hagree⟩ := @replay_verifies_iff plainDigest
    [readCart [1], readCart [1]] ⟨"database.read:Cart"⟩ "read:Cart:42" [] ⟨_, .head _, rfl, rfl⟩
  obtain ⟨bytes, hbytes, hiff⟩ := hagree _ (.head _)
  obtain rfl : [1] = first := Option.some.inj hfirst
  obtain rfl : [1] = last := Option.some.inj hlast
  obtain rfl : [1] = bytes := Except.ok.inj hbytes
  exact hiff.2 rfl

/-- Two reads of one cart, with a write between them. -/
theorem replay_rejects_second_read :
    (ReplayEngine.after plainDigest [readCart [1], readCart [2]]).intoVerifyingHandler.handle
      plainDigest ⟨"database.read:Cart"⟩ "read:Cart:42" [] = .ok [2] ∧
    (ReplayEngine.after plainDigest [readCart [1], readCart [2]]).verify plainDigest
      ⟨"database.read:Cart"⟩ "read:Cart:42" [2] =
        .error (.hashMismatch ⟨"database.read:Cart"⟩ "read:Cart:42" (plainDigest [1])
          (plainDigest [2])) :=
  ⟨by decide, rfl⟩

end Ail.Runtime
