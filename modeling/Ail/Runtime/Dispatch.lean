import Ail.Runtime.Replay

/-!
# Capability calls of a guest

The two host functions a WebAssembly guest calls (`host_dispatch/`):
`dispatchHostCall` returns the first eight bytes of the handler's
response, `dispatchHostCallWrite` writes the response into the guest's
memory and returns its length. Both read the names of the capability and
of the operation and the arguments from the guest's memory, check the
grants, the revocations and the limits of the profile, call the handler
that is bound to the capability and append an event to the audit log.

What a call reads of clocks and counters outside the store is given with
it (`Moment`). A handler may keep state of its own: its answer may depend
on all calls of handlers before. The hash comes from another crate and
is a parameter.
-/

namespace Ail.Runtime.HostDispatch

/-! ## Profiles -/

structure CapabilityGrant where
  module : String
  capability : CapabilityId

/-- A limit for one capability, or for all of them. -/
structure RateLimit where
  capability : Option String
  maxCallsPerSecond : UInt64

/-- The limits that concern capability calls. -/
structure ResourceLimits where
  maxCapabilityCalls : Option UInt64 := none
  rateLimits : Option (List RateLimit) := none
  payloadSizeLimit : Option UInt64 := none
  concurrencyLimit : Option UInt64 := none
  recursionStackLimit : Option UInt64 := none
  outputSizeLimit : Option UInt64 := none

structure RuntimeProfile where
  name : String
  verificationReportHash : String
  grants : List CapabilityGrant
  limits : ResourceLimits

def RuntimeProfile.grantsCapability (profile : RuntimeProfile) (module : String)
    (capability : CapabilityId) : Bool :=
  profile.grants.any fun grant => grant.module = module ∧ grant.capability = capability

def RuntimeProfile.grantsCapabilityToAnyModule (profile : RuntimeProfile)
    (capability : CapabilityId) : Bool :=
  profile.grants.any fun grant => grant.capability = capability

structure RevocationRecord where
  module : String
  capability : String
  profile : String

def isRevoked (revocations : List RevocationRecord) (module capability profile : String) : Bool :=
  revocations.any fun record =>
    record.module = module ∧ record.capability = capability ∧ record.profile = profile

/-! ## Handlers -/

/-- All errors a handler may return. -/
inductive HostError where
  | capabilityDenied (message : String)
  | capabilityDeniedCategorized (message auditCategory : String)
  | handlerNotBound (message : String)
  | payloadDecodeError (message : String)
  | payloadEncodeError (message : String)
  | contractViolation (message : String)
  | timeout (message : String)
  | limitExceeded (message : String)
  | handlerUnavailable (message : String)
  | boundaryFailure (message : String)
  | auditFailure (message : String)
  | manifestMismatch (message : String)
  | custom (message : String)

def HostError.auditCategory : HostError → Option String
  | capabilityDeniedCategorized _ category => some category
  | _ => none

def HostError.classification : HostError → String
  | capabilityDenied _ => "host_error.capability_denied"
  | capabilityDeniedCategorized _ _ => "host_error.capability_denied"
  | handlerNotBound _ => "host_error.handler_not_bound"
  | payloadDecodeError _ => "host_error.payload_decode"
  | payloadEncodeError _ => "host_error.payload_encode"
  | contractViolation _ => "host_error.contract_violation"
  | timeout _ => "host_error.timeout"
  | limitExceeded _ => "host_error.limit_exceeded"
  | handlerUnavailable _ => "host_error.handler_unavailable"
  | boundaryFailure _ => "host_error.boundary_failure"
  | auditFailure _ => "host_error.audit_failure"
  | manifestMismatch _ => "host_error.manifest_mismatch"
  | custom _ => "host_error.custom"

/-- One call of a handler. -/
structure Invocation where
  capability : CapabilityId
  operation : String
  payload : List UInt8

/-- A handler answers a call after the calls made so far. -/
structure Handler where
  name : String
  capabilities : List CapabilityId
  handle : List Invocation → Invocation → Except HostError (List UInt8)

/-! ## Audit events and diagnostics -/

structure TraceContext where
  traceId : String
  spanId : String
  parentSpanId : Option String

/-- The event of a capability call. The source also has a field for the
calling function, which neither host function fills in. -/
structure CapabilityCallExecuted where
  capability : CapabilityId
  operation : String
  handlerName : String
  succeeded : Bool
  durationUs : UInt64
  timestamp : UInt64
  profile : Option String
  module : Option String
  inputHash : Option String
  outputHash : Option String
  traceId : Option String
  verificationReportHash : Option String
  traceContext : Option TraceContext
  denialCategory : Option String

inductive HostDispatchResultDiagnosticKind where
  | malformedArgs
  | handlerMissing
  | hostError
  | resultAbiMismatch
  deriving DecidableEq

/-- The `{:?}` rendering of a kind. -/
def HostDispatchResultDiagnosticKind.debug : HostDispatchResultDiagnosticKind → String
  | malformedArgs => "MalformedArgs"
  | handlerMissing => "HandlerMissing"
  | hostError => "HostError"
  | resultAbiMismatch => "ResultAbiMismatch"

structure HostDispatchResultDiagnostic where
  kind : HostDispatchResultDiagnosticKind
  diagnosticKey : String
  subject : String
  classification : String
  detail : String
  deriving DecidableEq

/-! ## The state of the store -/

/-- Start of the window and number of calls in it, by capability or for
all of them. -/
abbrev RateLimitWindows := AList fun _ : Option String => UInt64 × UInt64

structure HostState where
  handlers : List Handler
  profile : RuntimeProfile
  moduleName : String
  /-- The capability calls in the audit log. -/
  auditLog : List CapabilityCallExecuted
  dispatchResultDiagnostics : List HostDispatchResultDiagnostic
  traceContext : Option TraceContext
  capabilityCallsUsed : UInt64
  revocations : List RevocationRecord
  rateLimitWindows : RateLimitWindows
  concurrentCalls : UInt64
  callDepth : UInt64
  /-- What the handlers have been asked so far; not a field of the source. -/
  invocations : List Invocation

/-- What a call reads of the world outside the store. -/
structure Moment where
  /-- `unix_timestamp_micros`. -/
  timestamp : UInt64
  /-- The duration when the event is written. -/
  elapsed : UInt64
  /-- `clock_fn`, in nanoseconds. -/
  clock : UInt64
  /-- `next_span_id`. -/
  spanId : String

/-- The arguments both host functions take. -/
structure HostCall where
  capPtr : Int32
  capLen : Int32
  opPtr : Int32
  opLen : Int32
  argsPtr : Int32
  argsLen : Int32

/-! ## The guest's memory -/

/-- The bytes of the export `memory`, if there is one. -/
abbrev GuestMemory := Option (List UInt8)

variable (memory : GuestMemory)

def readMemory (ptr len : Int32) : Option (List UInt8) :=
  if ptr < 0 ∨ len < 0 then none
  else memory.bind fun bytes =>
    if ptr.toInt.toNat + len.toInt.toNat ≤ bytes.length then
      some ((bytes.drop ptr.toInt.toNat).take len.toInt.toNat)
    else none

variable (bytes : List UInt8)

/-- `memory.write`. -/
def writeMemory (ptr : Nat) (data : List UInt8) : Option (List UInt8) :=
  if ptr + data.length ≤ bytes.length then
    some (bytes.take ptr ++ data ++ bytes.drop (ptr + data.length))
  else none

/-- `i64::from_le_bytes`. -/
def i64FromLeBytes : Int64 :=
  (UInt64.ofNat (bytes.foldr (fun byte rest => byte.toNat + 256 * rest) 0)).toInt64

def decodePackedTextArg (arg : List UInt8) (maxPayloadBytes : Option UInt64) :
    Option (List UInt8) :=
  if arg.length ≠ 8 then none
  else
    let packed := i64FromLeBytes arg
    let ptr := packed.toInt32
    let len := (packed >>> 32).toInt32
    if len < 0 then none
    else if maxPayloadBytes.any fun limit => limit.toNat < len.toInt.toNat then none
    else readMemory memory ptr len

def isUtf8 : Bool := (String.fromUTF8? ⟨bytes.toArray⟩).isSome

/-- Calls whose argument is a packed text. -/
def takesText (capability : CapabilityId) (operation : String) : Bool :=
  (capability.name = "log.write" ∧ operation = "write") ∨
    (capability.name = "file.read" ∧ operation = "read")

def handlerPayload (capability : CapabilityId) (operation : String) (args : List UInt8)
    (maxPayloadBytes : Option UInt64) : Option (List UInt8) :=
  if takesText capability operation then
    (decodePackedTextArg memory args maxPayloadBytes).filter isUtf8
  else some args

/-! ## Rate limits -/

inductive RateLimitScope where
  | global
  | capability (name : String)
  deriving DecidableEq

namespace RateLimitScope

def fromLimit (limit : RateLimit) : RateLimitScope :=
  match limit.capability with
  | some name => capability name
  | none => global

def appliesTo : RateLimitScope → CapabilityId → Bool
  | global, _ => true
  | capability name, cap => name = cap.name

def windowKey : RateLimitScope → Option String
  | global => none
  | capability name => some name

end RateLimitScope

/-- Of two limits for one scope the stricter one counts. -/
def mergeLimit (scope : RateLimitScope) (limit : UInt64) :
    List (RateLimitScope × UInt64) → List (RateLimitScope × UInt64)
  | [] => [(scope, limit)]
  | entry :: rest =>
    if entry.1 = scope then
      (scope, if limit.toNat < entry.2.toNat then limit else entry.2) :: rest
    else entry :: mergeLimit scope limit rest

/-- One entry for each scope. The source sorts them, which only decides
which exceeded limit a detailed answer names. -/
def applicableRateLimits (limits : List RateLimit) (capability : CapabilityId) :
    List (RateLimitScope × UInt64) :=
  limits.foldl
    (fun applicable limit =>
      if (RateLimitScope.fromLimit limit).appliesTo capability then
        mergeLimit (RateLimitScope.fromLimit limit) limit.maxCallsPerSecond applicable
      else applicable)
    []

def windowNanos : Nat := 1000000000

/-- Whether a window has ended; the subtraction saturates. -/
def expired (now start : UInt64) : Bool := windowNanos ≤ now.toNat - start.toNat

/-- The calls that count against a limit now. -/
def effectiveCount (windows : RateLimitWindows) (now : UInt64) (key : Option String) : UInt64 :=
  match windows.lookup key with
  | none => 0
  | some (start, count) => if expired now start then 0 else count

def bumpWindow (now : UInt64) (windows : RateLimitWindows) (key : Option String) :
    RateLimitWindows :=
  match windows.lookup key with
  | none => windows.insert key (now, 1)
  | some (start, count) =>
    if expired now start then windows.insert key (now, 1) else windows.insert key (start, count + 1)

/-- The windows after an allowed call; all limits are checked before any
window changes. -/
def checkRateLimits (limits : List RateLimit) (now : UInt64) (windows : RateLimitWindows)
    (capability : CapabilityId) : Option RateLimitWindows :=
  if limits.isEmpty then some windows
  else
    let applicable := applicableRateLimits limits capability
    if applicable.any fun entry =>
        entry.2.toNat ≤ (effectiveCount windows now entry.1.windowKey).toNat then none
    else some (applicable.foldl (fun windows entry => bumpWindow now windows entry.1.windowKey)
      windows)

section

variable (blake3Hex : List UInt8 → String)

/-! ## Diagnostics -/

def redactedLabel (value : String) : String :=
  "h" ++ String.ofList ((blake3Hex value.toUTF8.data.toList).toList.take 12) ++ ":len" ++
    toString value.utf8ByteSize

def callSubject (capability : Option CapabilityId) (operation handlerName : Option String) :
    String :=
  let label := fun (value : Option String) => (value.map (redactedLabel blake3Hex)).getD "unknown"
  "capability=" ++ label (capability.map (·.name)) ++ ",operation=" ++ label operation ++
    ",handler=" ++ label handlerName

namespace HostDispatchResultDiagnostic

def new (kind : HostDispatchResultDiagnosticKind) (subject classification detail : String) :
    HostDispatchResultDiagnostic where
  kind := kind
  diagnosticKey := "host_dispatch_result/" ++ kind.debug ++ "/" ++ subject ++ "/" ++ classification
  subject := subject
  classification := classification
  detail := detail

def malformedArgs (capability : Option CapabilityId) (operation : Option String)
    (classification detail : String) : HostDispatchResultDiagnostic :=
  new .malformedArgs (callSubject blake3Hex capability operation none) classification detail

def handlerMissing (capability : CapabilityId) (operation : String) :
    HostDispatchResultDiagnostic :=
  new .handlerMissing (callSubject blake3Hex (some capability) (some operation) none)
    "handler.missing" "no handler bound for granted capability"

def hostError (capability : CapabilityId) (operation handlerName : String) (error : HostError) :
    HostDispatchResultDiagnostic :=
  new .hostError (callSubject blake3Hex (some capability) (some operation) (some handlerName))
    error.classification ("error_shape=" ++ error.classification)

def resultAbiMismatch (capability : CapabilityId) (operation handlerName : String)
    (classification detail : String) : HostDispatchResultDiagnostic :=
  new .resultAbiMismatch (callSubject blake3Hex (some capability) (some operation)
    (some handlerName))
    classification detail

end HostDispatchResultDiagnostic

open HostDispatchResultDiagnostic

/-! ## Reading the call -/

/-- A text of the guest's memory, or the diagnostic that says why not. -/
def readLabel (ptr len : Int32) (unread invalid : HostDispatchResultDiagnostic) :
    Except HostDispatchResultDiagnostic String :=
  match readMemory memory ptr len with
  | none => .error unread
  | some bytes =>
    match String.fromUTF8? ⟨bytes.toArray⟩ with
    | none => .error invalid
    | some text => .ok text

/-- `checked_mul`. -/
def checkedMul (a b : Int32) : Option Int32 :=
  let product := a.toInt * b.toInt
  if -2147483648 ≤ product ∧ product < 2147483648 then some (Int32.ofInt product) else none

/-- The metadata of a call. -/
structure CallMetadata where
  capability : CapabilityId
  operation : String
  args : List UInt8
  deriving DecidableEq

def decodeArgs (memory : GuestMemory) (call : HostCall) (capability : CapabilityId)
    (operation : String) : Except HostDispatchResultDiagnostic (List UInt8) :=
  match checkedMul call.argsLen 8 with
  | none =>
    .error (malformedArgs blake3Hex (some capability) (some operation) "args.length_overflow"
      "args word length overflows byte length")
  | some byteLen =>
    match readMemory memory call.argsPtr byteLen with
    | none =>
      .error (malformedArgs blake3Hex (some capability) (some operation) "args.memory"
        "failed to read argument bytes from wasm memory")
    | some bytes => .ok bytes

def decodeCall (memory : GuestMemory) (call : HostCall) :
    Except HostDispatchResultDiagnostic CallMetadata := do
  let capability ← readLabel memory call.capPtr call.capLen
    (malformedArgs blake3Hex none none "capability.memory"
      "failed to read capability label from wasm memory")
    (malformedArgs blake3Hex none none "capability.utf8" "capability label is not valid utf-8")
  let operation ← readLabel memory call.opPtr call.opLen
    (malformedArgs blake3Hex (some ⟨capability⟩) none "operation.memory"
      "failed to read operation label from wasm memory")
    (malformedArgs blake3Hex (some ⟨capability⟩) none "operation.utf8"
      "operation label is not valid utf-8")
  let args ← decodeArgs blake3Hex memory call ⟨capability⟩ operation
  return ⟨⟨capability⟩, operation, args⟩

/-! ## Admission -/

/-- The limit on the text of `log.write`, which stands for the limit on
its arguments. -/
def logWriteTextLimit (limits : ResourceLimits) (capability : CapabilityId) (operation : String) :
    Option UInt64 :=
  if capability.name = "log.write" ∧ operation = "write" then limits.payloadSizeLimit else none

/-- Whether a counter has reached its limit. -/
def reached (limit : Option UInt64) (used : UInt64) : Bool :=
  limit.any fun most => most.toNat ≤ used.toNat

/-- Whether there are more bytes than a limit allows. -/
def exceeds (limit : Option UInt64) (length : Nat) : Bool :=
  limit.any fun bytes => bytes.toNat < length

variable (state : HostState)

/-- The checks before a handler is looked up, in their order: the rate
limit windows after them, and the category of the denial. -/
def admission (moment : Moment) (metadata : CallMetadata) : RateLimitWindows × Option String :=
  let profile := state.profile
  let limits := profile.limits
  let capability := metadata.capability
  if !profile.grantsCapability state.moduleName capability then
    (state.rateLimitWindows, some (if profile.grantsCapabilityToAnyModule capability then
      "capability.profile_mismatch" else "capability.not_granted"))
  else if isRevoked state.revocations state.moduleName capability.name profile.name then
    (state.rateLimitWindows, some "capability.revoked")
  else if (logWriteTextLimit limits capability metadata.operation).isNone ∧
      exceeds limits.payloadSizeLimit metadata.args.length then
    (state.rateLimitWindows, some "limit.payload_size")
  else if reached limits.maxCapabilityCalls state.capabilityCallsUsed then
    (state.rateLimitWindows, some "limit.max_capability_calls")
  else
    match checkRateLimits (limits.rateLimits.getD []) moment.clock state.rateLimitWindows
        capability with
    | none => (state.rateLimitWindows, some "limit.rate")
    | some windows =>
      if reached limits.concurrencyLimit state.concurrentCalls then
        (windows, some "limit.concurrency")
      else if reached limits.recursionStackLimit state.callDepth then
        (windows, some "limit.recursion_depth")
      else (windows, none)

/-! ## Steps on the state -/

namespace HostState

def recordDiagnostic (diagnostic : HostDispatchResultDiagnostic) : HostState :=
  { state with dispatchResultDiagnostics := state.dispatchResultDiagnostics ++ [diagnostic] }

/-- The call is in flight and has taken one of the calls allowed. -/
def enter : HostState :=
  { state with
    capabilityCallsUsed := state.capabilityCallsUsed + 1
    concurrentCalls := state.concurrentCalls + 1
    callDepth := state.callDepth + 1 }

def leave : HostState :=
  { state with
    concurrentCalls := state.concurrentCalls - 1
    callDepth := state.callDepth - 1 }

/-- The handler that serves a capability is the first that lists it. -/
def handlerFor (capability : CapabilityId) : Option Handler :=
  state.handlers.find? (capability ∈ ·.capabilities)

def invoke (invocation : Invocation) : HostState :=
  { state with invocations := state.invocations ++ [invocation] }

end HostState

/-- What all events of a call have in common. -/
structure CapabilityAuditContext where
  moment : Moment
  metadata : CallMetadata
  profile : RuntimeProfile
  module : String
  inputHash : String
  traceContext : Option TraceContext

def auditContext (moment : Moment) (metadata : CallMetadata) :
    CapabilityAuditContext where
  moment := moment
  metadata := metadata
  profile := state.profile
  module := state.moduleName
  inputHash := blake3Hex metadata.args
  traceContext := state.traceContext.map fun context =>
    ⟨context.traceId, moment.spanId, some context.spanId⟩

variable (audit : CapabilityAuditContext)

def CapabilityAuditContext.event (handlerName : String) (succeeded : Bool)
    (outputHash denialCategory : Option String) : CapabilityCallExecuted where
  capability := audit.metadata.capability
  operation := audit.metadata.operation
  handlerName := handlerName
  succeeded := succeeded
  durationUs := audit.moment.elapsed
  timestamp := audit.moment.timestamp
  profile := some audit.profile.name
  module := some audit.module
  inputHash := some audit.inputHash
  outputHash := outputHash
  traceId := audit.traceContext.map (·.traceId)
  verificationReportHash := some audit.profile.verificationReportHash
  traceContext := audit.traceContext
  denialCategory := denialCategory

def CapabilityAuditContext.push (state : HostState) (handlerName : String) (succeeded : Bool)
    (outputHash denialCategory : Option String) : HostState :=
  { state with
    auditLog := state.auditLog ++ [audit.event handlerName succeeded outputHash denialCategory] }

def CapabilityAuditContext.pushDenied (state : HostState) (handlerName category : String) :
    HostState :=
  audit.push state handlerName false none (some category)

/-! ## `host_call` -/

/-- What becomes of the handler's answer: the value returned, the state
and the event's last fields. -/
def finishHostCall (state : HostState) (handler : Handler)
    (answer : Except HostError (List UInt8)) : Option Int64 × HostState :=
  let capability := audit.metadata.capability
  let operation := audit.metadata.operation
  match answer with
  | .error error =>
    (some (-1), audit.push
      (state.recordDiagnostic (hostError blake3Hex capability operation handler.name error)).leave
      handler.name false none error.auditCategory)
  | .ok bytes =>
    if exceeds state.profile.limits.outputSizeLimit bytes.length then
      (some (-1), audit.push state.leave handler.name false none (some "limit.output_size"))
    else if 8 ≤ bytes.length then
      (some (i64FromLeBytes (bytes.take 8)),
        audit.push state.leave handler.name true (some (blake3Hex bytes)) none)
    else
      (some 0, audit.push
        (state.recordDiagnostic (resultAbiMismatch blake3Hex capability operation handler.name
          "result.i64_bytes" ("expected_bytes=8; actual_bytes=" ++ toString bytes.length))).leave
        handler.name true (some (blake3Hex bytes)) none)

def dispatchHostCall (memory : GuestMemory) (call : HostCall) (moment : Moment)
    (state : HostState) : Option Int64 × HostState :=
  match decodeCall blake3Hex memory call with
  | .error diagnostic => (none, state.recordDiagnostic diagnostic)
  | .ok metadata =>
    let capability := metadata.capability
    let operation := metadata.operation
    let audit := auditContext blake3Hex state moment metadata
    let textLimit := logWriteTextLimit state.profile.limits capability operation
    let checked := { state with rateLimitWindows := (admission state moment metadata).1 }
    match (admission state moment metadata).2 with
    | some category => (some (-1), audit.pushDenied checked "none" category)
    | none =>
      -- a call without a handler has been counted, too
      let entered := checked.enter
      match entered.handlerFor capability with
      | none =>
        (some (-1), audit.pushDenied
          (entered.recordDiagnostic (handlerMissing blake3Hex capability operation)).leave "none"
          "handler.not_bound")
      | some handler =>
        match handlerPayload memory capability operation metadata.args textLimit with
        | none =>
          (some (-1), audit.pushDenied
            (entered.recordDiagnostic (malformedArgs blake3Hex (some capability) (some operation)
              "payload.decode" "failed to decode host payload from dispatch arguments")).leave
            handler.name "payload.decode")
        | some payload =>
          let invocation := ⟨capability, operation, payload⟩
          finishHostCall blake3Hex audit (entered.invoke invocation) handler
            (handler.handle entered.invocations invocation)

/-! ## `host_call_write` -/

/-- `host_call_write` fails after the handler has answered. -/
def failWrite (state : HostState) (handler : Handler) (classification detail category : String) :
    HostState :=
  audit.pushDenied
    (state.recordDiagnostic (resultAbiMismatch blake3Hex audit.metadata.capability
      audit.metadata.operation handler.name classification detail)).leave
    handler.name category

def finishHostCallWrite (memory : GuestMemory) (outPtr outMax : Int32)
    (audit : CapabilityAuditContext) (state : HostState) (handler : Handler)
    (answer : Except HostError (List UInt8)) : Option Int32 × HostState × GuestMemory :=
  let capability := audit.metadata.capability
  let operation := audit.metadata.operation
  match answer with
  | .error error =>
    (none, audit.push
      (state.recordDiagnostic (hostError blake3Hex capability operation handler.name error)).leave
      handler.name false none error.auditCategory, memory)
  | .ok response =>
    if exceeds state.profile.limits.outputSizeLimit response.length then
      (none, audit.pushDenied state.leave handler.name "limit.output_size", memory)
    else if outMax.toInt.toNat < response.length then
      (none, failWrite blake3Hex audit state handler "result.output_buffer_too_small"
        ("response_bytes=" ++ toString response.length ++ "; output_buffer_bytes=" ++
          toString outMax.toInt) "limit.output_size", memory)
    else
      match memory with
      | none =>
        (none, failWrite blake3Hex audit state handler "result.memory_missing"
          "wasm memory export is unavailable for host_call_write result" "payload.decode", memory)
      | some bytes =>
        match writeMemory bytes outPtr.toInt.toNat response with
        | none =>
          (none, failWrite blake3Hex audit state handler "result.memory_write"
            "failed to write host_call_write result into wasm memory" "payload.decode", memory)
        | some written =>
          (some (Int32.ofInt response.length),
            audit.push state.leave handler.name true (some (blake3Hex response)) none, some written)

def dispatchHostCallWrite (memory : GuestMemory) (call : HostCall) (outPtr outMax : Int32)
    (moment : Moment) (state : HostState) : Option Int32 × HostState × GuestMemory :=
  match decodeCall blake3Hex memory call with
  | .error diagnostic => (none, state.recordDiagnostic diagnostic, memory)
  | .ok metadata =>
    let capability := metadata.capability
    let operation := metadata.operation
    let audit := auditContext blake3Hex state moment metadata
    let textLimit := logWriteTextLimit state.profile.limits capability operation
    if outPtr < 0 ∨ outMax < 0 then
      (none, audit.pushDenied
        (state.recordDiagnostic (malformedArgs blake3Hex (some capability) (some operation)
          "output_buffer.pointer" "output buffer pointer or length is negative"))
        "none" "payload.decode", memory)
    else
      let checked := { state with rateLimitWindows := (admission state moment metadata).1 }
      match (admission state moment metadata).2 with
      | some category => (none, audit.pushDenied checked "none" category, memory)
      | none =>
        match checked.handlerFor capability with
        | none =>
          (none, audit.pushDenied
            (checked.recordDiagnostic (handlerMissing blake3Hex capability operation)) "none"
            "handler.not_bound", memory)
        | some handler =>
          -- only a call that has a handler is counted
          let entered := checked.enter
          match handlerPayload memory capability operation metadata.args textLimit with
          | none =>
            (none, audit.pushDenied
              (entered.recordDiagnostic (malformedArgs blake3Hex (some capability) (some operation)
                "payload.decode" "failed to decode host payload from dispatch arguments")).leave
              handler.name "payload.decode", memory)
          | some payload =>
            let invocation := ⟨capability, operation, payload⟩
            finishHostCallWrite blake3Hex memory outPtr outMax audit (entered.invoke invocation)
              handler (handler.handle entered.invocations invocation)

end

end Ail.Runtime.HostDispatch
