import Ail.Lib.Run
import Ail.Runtime.Dispatch

/-!
# Mediation of capability calls

What holds of every call: the in-flight counters come back to their
values, a call whose metadata could be read leaves exactly one event, and
a handler is called only within grants, revocations and limits. Two
things are not as one would expect. The text a `file.read` passes to its
handler is not held against the payload limit, only the eight bytes that
point to it are. And `host_call` reports success for a response of fewer
than eight bytes, of which the guest sees nothing.
-/

namespace Ail.Runtime.HostDispatch

open Lib List CapabilityAuditContext

/-! ## Rate limits -/

/-- No limit that applies has been used up in its window. -/
def RateAllows (limits : List RateLimit) (now : UInt64) (windows : RateLimitWindows)
    (capability : CapabilityId) : Prop :=
  ∀ limit ∈ limits, (RateLimitScope.fromLimit limit).appliesTo capability = true →
    (effectiveCount windows now (RateLimitScope.fromLimit limit).windowKey).toNat <
      limit.maxCallsPerSecond.toNat

/-- An entry that is used up. -/
def UsedUp (count : RateLimitScope → Nat) (entry : RateLimitScope × UInt64) : Prop :=
  entry.2.toNat ≤ count entry.1

variable {count : RateLimitScope → Nat}

theorem exists_usedUp_mergeLimit {scope : RateLimitScope} {limit : UInt64}
    {entries : List (RateLimitScope × UInt64)} :
    (∃ entry ∈ mergeLimit scope limit entries, UsedUp count entry) ↔
      limit.toNat ≤ count scope ∨ ∃ entry ∈ entries, UsedUp count entry := by
  induction entries with
  | nil => simp [mergeLimit, UsedUp]
  | cons entry rest ih =>
    rw [mergeLimit]
    split
    next hscope =>
      have hmin : UsedUp count (scope, if limit.toNat < entry.2.toNat then limit else entry.2) ↔
          limit.toNat ≤ count scope ∨ UsedUp count entry := by
        simp only [UsedUp, hscope]
        split <;> omega
      simp [hmin, or_assoc]
    next =>
      simp only [exists_mem_cons_iff, ih]
      exact or_left_comm

theorem exists_usedUp_applicable {capability : CapabilityId} (limits : List RateLimit) :
    (∃ entry ∈ applicableRateLimits limits capability, UsedUp count entry) ↔
      ∃ limit ∈ limits, (RateLimitScope.fromLimit limit).appliesTo capability = true ∧
        limit.maxCallsPerSecond.toNat ≤ count (RateLimitScope.fromLimit limit) := by
  induction limits using List.reverseRecOn with
  | nil => simp [applicableRateLimits]
  | append_singleton earlier last ih =>
    simp only [applicableRateLimits, foldl_append, foldl_cons, foldl_nil] at ih ⊢
    split
    next happlies => rw [exists_usedUp_mergeLimit, ih, or_comm]; simp [happlies]
    next hnot => rw [ih]; simp [hnot]

theorem checkRateLimits_isSome_iff {limits : List RateLimit} {now : UInt64}
    {windows : RateLimitWindows} {capability : CapabilityId} :
    (checkRateLimits limits now windows capability).isSome ↔
      RateAllows limits now windows capability := by
  have happlicable := @exists_usedUp_applicable
    (fun scope => (effectiveCount windows now scope.windowKey).toNat) capability limits
  rw [checkRateLimits]
  split
  next hempty => simp [List.isEmpty_iff.1 hempty, RateAllows]
  next =>
    dsimp only
    split
    next hany =>
      obtain ⟨entry, hentry, hused⟩ := any_eq_true.1 hany
      obtain ⟨limit, hlimit, happlies, hle⟩ :=
        happlicable.1 ⟨entry, hentry, by simpa [UsedUp] using hused⟩
      simp only [Option.isSome_none, Bool.false_eq_true, false_iff]
      exact fun hallows => absurd (hallows limit hlimit happlies) (Nat.not_lt.2 hle)
    next hnone =>
      simp only [Option.isSome_some, true_iff]
      intro limit hlimit happlies
      by_contra hge
      obtain ⟨entry, hentry, hused⟩ := happlicable.2 ⟨limit, hlimit, happlies, Nat.not_lt.1 hge⟩
      exact hnone (any_eq_true.2 ⟨entry, hentry, by simpa [UsedUp] using hused⟩)

/-! ## Admission -/

/-- A counter is below its limit, if it has one. -/
def Below (limit : Option UInt64) (used : UInt64) : Prop :=
  ∀ most, limit = some most → used.toNat < most.toNat

/-- A size is within its limit, if it has one. -/
def Within (limit : Option UInt64) (length : Nat) : Prop :=
  ∀ most, limit = some most → length ≤ most.toNat

variable {limit : Option UInt64}

theorem reached_eq_false_iff {used : UInt64} : reached limit used = false ↔ Below limit used := by
  cases limit <;> simp [reached, Below]

theorem exceeds_eq_false_iff {length : Nat} :
    exceeds limit length = false ↔ Within limit length := by
  cases limit <;> simp [exceeds, Within]

/-- Grants, revocations and limits other than that on the payload. -/
structure Allowed (state : HostState) (moment : Moment) (capability : CapabilityId) : Prop where
  granted : state.profile.grantsCapability state.moduleName capability = true
  notRevoked : isRevoked state.revocations state.moduleName capability.name state.profile.name =
    false
  calls : Below state.profile.limits.maxCapabilityCalls state.capabilityCallsUsed
  rate : RateAllows (state.profile.limits.rateLimits.getD []) moment.clock state.rateLimitWindows
    capability
  concurrency : Below state.profile.limits.concurrencyLimit state.concurrentCalls
  depth : Below state.profile.limits.recursionStackLimit state.callDepth

theorem snd_ite_eq_none {α β : Type} {c : Prop} [Decidable c] {a : α} {b : β}
    {rest : α × Option β} : (if c then (a, some b) else rest).2 = none ↔ ¬c ∧ rest.2 = none := by
  split <;> simp [*]

variable {metadata : CallMetadata}

/-- A call is admitted exactly if it is allowed. -/
theorem admission_eq_none_iff {state : HostState} {moment : Moment} :
    (admission state moment metadata).2 = none ↔
      Allowed state moment metadata.capability ∧
        ((logWriteTextLimit state.profile.limits metadata.capability metadata.operation).isNone →
          Within state.profile.limits.payloadSizeLimit metadata.args.length) := by
  have hrate := @checkRateLimits_isSome_iff (state.profile.limits.rateLimits.getD []) moment.clock
    state.rateLimitWindows metadata.capability
  simp only [admission, snd_ite_eq_none, Bool.not_eq_true, Bool.not_eq_false']
  split
  next hnone =>
    rw [hnone] at hrate
    simp only [reduceCtorEq, and_false, false_iff]
    exact fun h => Bool.noConfusion (hrate.2 h.1.rate)
  next windows hsome =>
    simp only [snd_ite_eq_none, Bool.not_eq_true, reached_eq_false_iff, and_true]
    constructor
    · rintro ⟨hgranted, hrevoked, hpayload, hcalls, hconcurrency, hdepth⟩
      refine ⟨⟨hgranted, hrevoked, hcalls, hrate.1 (by rw [hsome]; rfl), hconcurrency, hdepth⟩,
        fun hplain => ?_⟩
      exact exceeds_eq_false_iff.1 (by simpa [hplain] using hpayload)
    · rintro ⟨hallowed, hwithin⟩
      refine ⟨hallowed.granted, hallowed.notRevoked, fun hpayload => ?_, hallowed.calls,
        hallowed.concurrency, hallowed.depth⟩
      have hfalse := exceeds_eq_false_iff.2 (hwithin hpayload.1)
      simp [hfalse] at hpayload

/-! ## What one call does -/

variable {ending : Handler → Invocation → CapabilityCallExecuted → Prop}
  {reaches : Handler → Invocation → Prop} {state' : HostState}

section

variable (blake3Hex : List UInt8 → String)

/-- The call gets as far as this invocation of this handler. -/
def Reaches (memory : GuestMemory) (call : HostCall) (moment : Moment) (state : HostState)
    (handler : Handler) (invocation : Invocation) : Prop :=
  ∃ metadata, decodeCall blake3Hex memory call = .ok metadata ∧
    (admission state moment metadata).2 = none ∧
    state.handlerFor metadata.capability = some handler ∧
    ∃ payload, handlerPayload memory metadata.capability metadata.operation metadata.args
        (logWriteTextLimit state.profile.limits metadata.capability metadata.operation) =
          some payload ∧
      invocation = ⟨metadata.capability, metadata.operation, payload⟩

/-- The state after a call that was read, with the invocations it made
and its event. -/
structure Settles (state state' : HostState) (metadata : CallMetadata) (invoked : List Invocation)
    (event : CapabilityCallExecuted) : Prop where
  auditLog : state'.auditLog = state.auditLog ++ [event]
  capability : event.capability = metadata.capability
  operation : event.operation = metadata.operation
  concurrentCalls : state'.concurrentCalls = state.concurrentCalls
  callDepth : state'.callDepth = state.callDepth
  profile : state'.profile = state.profile
  invocations : state'.invocations = state.invocations ++ invoked
  /-- Only a call that was counted has invoked a handler. -/
  counted : (invoked = [] ∧ state'.capabilityCallsUsed = state.capabilityCallsUsed) ∨
    (invoked.length ≤ 1 ∧ state'.capabilityCallsUsed = state.capabilityCallsUsed + 1 ∧
      Below state.profile.limits.maxCapabilityCalls state.capabilityCallsUsed)

variable {blake3Hex} {memory : GuestMemory} {call : HostCall} {moment : Moment} {state : HostState}
  {handler : Handler} {invocation : Invocation}

/-- A text that was decoded under a limit is within the limit. -/
theorem length_decodePackedTextArg {arg text : List UInt8}
    (hdecode : decodePackedTextArg memory arg limit = some text) : Within limit text.length := by
  intro most hlimit
  simp only [decodePackedTextArg] at hdecode
  split at hdecode
  next => exact nomatch hdecode
  next =>
  split at hdecode
  next => exact nomatch hdecode
  next =>
  split at hdecode
  next => exact nomatch hdecode
  next hwithin =>
    simp only [hlimit, Option.any_some, decide_eq_true_eq, Nat.not_lt] at hwithin
    unfold readMemory at hdecode
    split at hdecode
    next => exact nomatch hdecode
    next =>
      obtain ⟨bytes, -, hread⟩ := Option.bind_eq_some_iff.1 hdecode
      split at hread
      next =>
        cases hread
        exact (length_take_le _ _).trans hwithin
      next => exact nomatch hread

section

variable (h : Reaches blake3Hex memory call moment state handler invocation)
include h

/-- A call reaches one handler at most, with one invocation. -/
theorem Reaches.unique {handler' : Handler} {invocation' : Invocation}
    (h' : Reaches blake3Hex memory call moment state handler' invocation') :
    handler = handler' ∧ invocation = invocation' := by
  obtain ⟨metadata, hdecode, -, hbound, payload, hpayload, rfl⟩ := h
  obtain ⟨metadata', hdecode', -, hbound', payload', hpayload', rfl⟩ := h'
  cases hdecode.symm.trans hdecode'
  rw [hbound] at hbound'
  rw [hpayload] at hpayload'
  exact ⟨Option.some.inj hbound', by rw [Option.some.inj hpayload']⟩

/-- What reaches a handler was allowed. -/
theorem Reaches.allowed : Allowed state moment invocation.capability := by
  obtain ⟨metadata, -, hadmitted, -, payload, -, rfl⟩ := h
  exact (admission_eq_none_iff.1 hadmitted).1

theorem Reaches.of_decoded (hdecode : decodeCall blake3Hex memory call = .ok metadata) :
    (admission state moment metadata).2 = none ∧
      state.handlerFor metadata.capability = some handler ∧
      (handlerPayload memory metadata.capability metadata.operation metadata.args
        (logWriteTextLimit state.profile.limits metadata.capability
          metadata.operation)).isSome := by
  obtain ⟨metadata', hdecode', hadmitted, hbound, payload, hpayload, -⟩ := h
  cases hdecode.symm.trans hdecode'
  exact ⟨hadmitted, hbound, by simp [hpayload]⟩

/-- The payload is within its limit, unless it is the text of a
`file.read`. -/
theorem Reaches.within
    (hother : ¬(invocation.capability.name = "file.read" ∧ invocation.operation = "read")) :
    Within state.profile.limits.payloadSizeLimit invocation.payload.length := by
  obtain ⟨metadata, -, hadmitted, -, payload, hpayload, rfl⟩ := h
  have hargs := (admission_eq_none_iff.1 hadmitted).2
  unfold handlerPayload at hpayload
  split at hpayload
  next htext =>
    have hlog : metadata.capability.name = "log.write" ∧ metadata.operation = "write" :=
      (of_decide_eq_true htext).resolve_right hother
    obtain ⟨hdecode, -⟩ := Option.filter_eq_some_iff.1 hpayload
    have hwithin := length_decodePackedTextArg hdecode
    rwa [logWriteTextLimit, if_pos hlog] at hwithin
  next hplain =>
    cases hpayload
    have hlog : ¬(metadata.capability.name = "log.write" ∧ metadata.operation = "write") :=
      fun hlog => hplain (decide_eq_true (.inl hlog))
    exact hargs (by simp [logWriteTextLimit, hlog])

end

/-- What becomes of a call: it cannot be read, it invokes no handler, or it
invokes one. `reaches` tells when it does and `ending` what then follows. -/
inductive CallCases (blake3Hex : List UInt8 → String) (memory : GuestMemory) (call : HostCall)
    (state state' : HostState) (reaches : Handler → Invocation → Prop)
    (ending : Handler → Invocation → CapabilityCallExecuted → Prop) : Prop where
  | unread (diagnostic : HostDispatchResultDiagnostic)
    (hdecode : decodeCall blake3Hex memory call = .error diagnostic)
    (heq : state' = state.recordDiagnostic diagnostic)
  | denied (metadata : CallMetadata) (event : CapabilityCallExecuted)
    (hdecode : decodeCall blake3Hex memory call = .ok metadata)
    (hnone : ∀ handler invocation, ¬reaches handler invocation)
    (hsettles : Settles state state' metadata [] event) (hfailed : event.succeeded = false)
  | invoked (metadata : CallMetadata) (handler : Handler) (invocation : Invocation)
    (event : CapabilityCallExecuted) (hdecode : decodeCall blake3Hex memory call = .ok metadata)
    (hreaches : reaches handler invocation)
    (hsettles : Settles state state' metadata [invocation] event)
    (hending : ending handler invocation event)

/-- A call in flight. -/
structure InFlight (state during : HostState) (invoked : List Invocation) : Prop where
  auditLog : during.auditLog = state.auditLog
  concurrentCalls : during.concurrentCalls = state.concurrentCalls + 1
  callDepth : during.callDepth = state.callDepth + 1
  profile : during.profile = state.profile
  invocations : during.invocations = state.invocations ++ invoked
  used : during.capabilityCallsUsed = state.capabilityCallsUsed + 1

variable {during : HostState} {invoked : List Invocation}

theorem InFlight.recordDiagnostic (h : InFlight state during invoked)
    (diagnostic : HostDispatchResultDiagnostic) :
    InFlight state (during.recordDiagnostic diagnostic) invoked :=
  ⟨h.auditLog, h.concurrentCalls, h.callDepth, h.profile, h.invocations, h.used⟩

/-- Leaving and writing the event settles the call. -/
theorem InFlight.settles (h : InFlight state during invoked) (hone : invoked.length ≤ 1)
    (hbelow : Below state.profile.limits.maxCapabilityCalls state.capabilityCallsUsed)
    {audit : CapabilityAuditContext} {handlerName : String} {succeeded : Bool}
    {outputHash denialCategory : Option String} :
    Settles state (audit.push during.leave handlerName succeeded outputHash denialCategory)
      audit.metadata invoked (audit.event handlerName succeeded outputHash denialCategory) where
  auditLog := congrArg (· ++ [_]) h.auditLog
  capability := rfl
  operation := rfl
  concurrentCalls := by
    change during.concurrentCalls - 1 = _
    rw [h.concurrentCalls, UInt64.add_sub_cancel]
  callDepth := by
    change during.callDepth - 1 = _
    rw [h.callDepth, UInt64.add_sub_cancel]
  profile := h.profile
  invocations := h.invocations
  counted := .inr ⟨hone, h.used, hbelow⟩

theorem inFlight_enter (windows : RateLimitWindows) :
    InFlight state ({ state with rateLimitWindows := windows }).enter [] :=
  ⟨rfl, rfl, rfl, rfl, (append_nil _).symm, rfl⟩

theorem inFlight_invoke (windows : RateLimitWindows) (invocation : Invocation) :
    InFlight state (({ state with rateLimitWindows := windows }).enter.invoke invocation)
      [invocation] :=
  ⟨rfl, rfl, rfl, rfl, rfl, rfl⟩

/-- A call that is turned down before it is counted. -/
theorem settles_uncounted {audit : CapabilityAuditContext} {windows : RateLimitWindows}
    {diagnostics : List HostDispatchResultDiagnostic} {category : String} :
    Settles state
      (audit.pushDenied { state with
        rateLimitWindows := windows
        dispatchResultDiagnostics := diagnostics } "none" category)
      audit.metadata [] (audit.event "none" false none (some category)) :=
  ⟨rfl, rfl, rfl, rfl, rfl, rfl, (append_nil _).symm, .inl ⟨rfl, rfl⟩⟩

/-! ## `host_call` -/

/-- The answer of a handler and the limit on it decide the event and the
value. -/
def HostCallEnding (state : HostState) (value : Option Int64) (handler : Handler)
    (invocation : Invocation) (event : CapabilityCallExecuted) : Prop :=
  (event.succeeded = true ↔ ∃ response, handler.handle state.invocations invocation = .ok response ∧
    Within state.profile.limits.outputSizeLimit response.length) ∧
  ∀ response, handler.handle state.invocations invocation = .ok response →
    Within state.profile.limits.outputSizeLimit response.length →
    value = some (if 8 ≤ response.length then i64FromLeBytes (response.take 8) else 0)

theorem finishHostCall_settles (hflight : InFlight state during [invocation])
    (hbelow : Below state.profile.limits.maxCapabilityCalls state.capabilityCallsUsed)
    (audit : CapabilityAuditContext) {answer : Except HostError (List UInt8)}
    (hanswer : handler.handle state.invocations invocation = answer) :
    ∃ event,
      Settles state (finishHostCall blake3Hex audit during handler answer).2 audit.metadata
        [invocation] event ∧
      HostCallEnding state (finishHostCall blake3Hex audit during handler answer).1 handler
        invocation event := by
  cases answer with
  | error error =>
    refine ⟨_, (hflight.recordDiagnostic _).settles le_rfl hbelow, ?_, ?_⟩
    · simp [event, hanswer]
    · simp [hanswer]
  | ok bytes =>
    simp only [finishHostCall, hflight.profile]
    split
    next hexceeds =>
      have hnot : ¬Within state.profile.limits.outputSizeLimit bytes.length := by
        rw [← exceeds_eq_false_iff, hexceeds]
        exact Bool.noConfusion
      refine ⟨_, hflight.settles le_rfl hbelow, ?_, ?_⟩
      · simp [event, hanswer, hnot]
      · simp [hanswer, hnot]
    next hwithin =>
      have hwithin : Within state.profile.limits.outputSizeLimit bytes.length :=
        exceeds_eq_false_iff.1 (by simpa using hwithin)
      split
      next hlong =>
        refine ⟨_, hflight.settles le_rfl hbelow, ?_, ?_⟩
        · simp [event, hanswer, hwithin]
        · simp [hanswer, hlong]
      next hshort =>
        refine ⟨_, (hflight.recordDiagnostic _).settles le_rfl hbelow, ?_, ?_⟩
        · simp [event, hanswer, hwithin]
        · simp [hanswer, hshort]

variable (blake3Hex memory call moment state) in
/-- How a host call can end. -/
theorem dispatchHostCall_cases :
    CallCases blake3Hex memory call state (dispatchHostCall blake3Hex memory call moment state).2
      (Reaches blake3Hex memory call moment state)
      (HostCallEnding state (dispatchHostCall blake3Hex memory call moment state).1) := by
  rw [dispatchHostCall]
  split
  next diagnostic hdecode => exact .unread diagnostic hdecode rfl
  next metadata hdecode =>
    dsimp only
    split
    next category hdenied =>
      refine .denied metadata _ hdecode (fun handler invocation h => ?_) settles_uncounted rfl
      simp [(h.of_decoded hdecode).1] at hdenied
    next hadmitted =>
      have hbelow := (admission_eq_none_iff.1 hadmitted).1.calls
      split
      next hunbound =>
        refine .denied metadata _ hdecode (fun handler invocation h => ?_)
          (((inFlight_enter _).recordDiagnostic _).settles (Nat.zero_le _) hbelow) rfl
        exact absurd ((h.of_decoded hdecode).2.1.symm.trans hunbound) (by simp)
      next handler hbound =>
        split
        next hundecoded =>
          refine .denied metadata _ hdecode (fun handler invocation h => ?_)
            (((inFlight_enter _).recordDiagnostic _).settles (Nat.zero_le _) hbelow) rfl
          have hsome := (h.of_decoded hdecode).2.2
          rw [hundecoded] at hsome
          exact absurd hsome (by simp)
        next payload hpayload =>
          obtain ⟨event, hsettles, hending⟩ := @finishHostCall_settles blake3Hex state handler
            ⟨metadata.capability, metadata.operation, payload⟩ _ (inFlight_invoke _ _) hbelow
            (auditContext blake3Hex state moment metadata) _ rfl
          exact .invoked metadata handler _ event hdecode
            ⟨metadata, hdecode, hadmitted, hbound, payload, hpayload, rfl⟩ hsettles hending

/-! ## `host_call_write` -/

/-- The response is in the guest's memory and its length is returned. -/
def Written (memory : GuestMemory) (outPtr : Int32) (result : Option Int32 × GuestMemory)
    (response : List UInt8) : Prop :=
  result.1 = some (Int32.ofInt response.length) ∧ ∃ bytes written, memory = some bytes ∧
    writeMemory bytes outPtr.toInt.toNat response = some written ∧ result.2 = some written

def WriteEnding (state : HostState) (memory : GuestMemory) (outPtr : Int32)
    (result : Option Int32 × GuestMemory) (handler : Handler) (invocation : Invocation)
    (event : CapabilityCallExecuted) : Prop :=
  event.succeeded = true ↔ ∃ response, handler.handle state.invocations invocation = .ok response ∧
    Within state.profile.limits.outputSizeLimit response.length ∧
    Written memory outPtr result response

theorem not_written_of_none {outPtr : Int32} {after : GuestMemory} {response : List UInt8} :
    ¬Written memory outPtr (none, after) response := fun h => absurd h.1 (by simp)

theorem finishHostCallWrite_settles (hflight : InFlight state during [invocation])
    (hbelow : Below state.profile.limits.maxCapabilityCalls state.capabilityCallsUsed)
    (outPtr outMax : Int32) (audit : CapabilityAuditContext)
    {answer : Except HostError (List UInt8)}
    (hanswer : handler.handle state.invocations invocation = answer) :
    ∃ event,
      Settles state (finishHostCallWrite blake3Hex memory outPtr outMax audit during handler
        answer).2.1
        audit.metadata [invocation] event ∧
      WriteEnding state memory outPtr
        ((finishHostCallWrite blake3Hex memory outPtr outMax audit during handler answer).1,
          (finishHostCallWrite blake3Hex memory outPtr outMax audit during handler answer).2.2)
        handler invocation event := by
  cases answer with
  | error error =>
    refine ⟨_, (hflight.recordDiagnostic _).settles le_rfl hbelow, ?_⟩
    simp [WriteEnding, event, hanswer]
  | ok response =>
    simp only [finishHostCallWrite, hflight.profile]
    split
    next =>
      refine ⟨_, hflight.settles le_rfl hbelow, ?_⟩
      simp [WriteEnding, event, not_written_of_none]
    next hwithin =>
      have hwithin : Within state.profile.limits.outputSizeLimit response.length :=
        exceeds_eq_false_iff.1 (by simpa using hwithin)
      split
      next =>
        refine ⟨_, (hflight.recordDiagnostic _).settles le_rfl hbelow, ?_⟩
        simp [WriteEnding, event, not_written_of_none]
      next =>
        cases memory with
        | none =>
          refine ⟨_, (hflight.recordDiagnostic _).settles le_rfl hbelow, ?_⟩
          simp [WriteEnding, event, not_written_of_none]
        | some bytes =>
          dsimp only
          cases hwrite : writeMemory bytes outPtr.toInt.toNat response with
          | none =>
            refine ⟨_, (hflight.recordDiagnostic _).settles le_rfl hbelow, ?_⟩
            simp [WriteEnding, event, not_written_of_none]
          | some written =>
            refine ⟨_, hflight.settles le_rfl hbelow, ?_⟩
            simpa [WriteEnding, Written, event, hanswer, hwithin] using hwrite

variable (blake3Hex memory call moment state) in
theorem dispatchHostCallWrite_cases (outPtr outMax : Int32) :
    CallCases blake3Hex memory call state
      (dispatchHostCallWrite blake3Hex memory call outPtr outMax moment state).2.1
      (fun handler invocation => ¬(outPtr < 0 ∨ outMax < 0) ∧
        Reaches blake3Hex memory call moment state handler invocation)
      (WriteEnding state memory outPtr
        ((dispatchHostCallWrite blake3Hex memory call outPtr outMax moment state).1,
          (dispatchHostCallWrite blake3Hex memory call outPtr outMax moment state).2.2)) := by
  rw [dispatchHostCallWrite]
  split
  next diagnostic hdecode => exact .unread diagnostic hdecode rfl
  next metadata hdecode =>
    dsimp only
    split
    next hnegative =>
      exact .denied metadata _ hdecode (fun handler invocation h => h.1 hnegative)
        settles_uncounted rfl
    next hpositive =>
    split
    next category hdenied =>
      refine .denied metadata _ hdecode (fun handler invocation h => ?_) settles_uncounted rfl
      simp [(h.2.of_decoded hdecode).1] at hdenied
    next hadmitted =>
    have hbelow := (admission_eq_none_iff.1 hadmitted).1.calls
    split
    next hunbound =>
      refine .denied metadata _ hdecode (fun handler invocation h => ?_) settles_uncounted rfl
      exact absurd ((h.2.of_decoded hdecode).2.1.symm.trans hunbound) (by simp)
    next handler hbound =>
    split
    next hundecoded =>
      refine .denied metadata _ hdecode (fun handler invocation h => ?_)
        (((inFlight_enter _).recordDiagnostic _).settles (Nat.zero_le _) hbelow) rfl
      have hsome := (h.2.of_decoded hdecode).2.2
      rw [hundecoded] at hsome
      exact absurd hsome (by simp)
    next payload hpayload =>
      obtain ⟨event, hsettles, hending⟩ := @finishHostCallWrite_settles blake3Hex memory state
        handler ⟨metadata.capability, metadata.operation, payload⟩ _ (inFlight_invoke _ _) hbelow
        outPtr outMax (auditContext blake3Hex state moment metadata) _ rfl
      exact .invoked metadata handler _ event hdecode
        ⟨hpositive, metadata, hdecode, hadmitted, hbound, payload, hpayload, rfl⟩ hsettles hending

/-! ## Mediation -/

/-- What is asked of a call; `delivered` tells when the guest has the
response. -/
structure Mediated (blake3Hex : List UInt8 → String) (memory : GuestMemory) (call : HostCall)
    (moment : Moment) (state state' : HostState) (delivered : List UInt8 → Prop) : Prop where
  invoked : ∃ invoked, state'.invocations = state.invocations ++ invoked ∧
    ∀ invocation ∈ invoked, Allowed state moment invocation.capability ∧
      Within state.profile.limits.payloadSizeLimit invocation.payload.length
  audited : ∀ metadata, decodeCall blake3Hex memory call = .ok metadata →
    ∃ event, state'.auditLog = state.auditLog ++ [event] ∧
      event.capability = metadata.capability ∧ event.operation = metadata.operation ∧
      (event.succeeded = true ↔ ∃ handler invocation response,
        state'.invocations = state.invocations ++ [invocation] ∧
        state.handlerFor invocation.capability = some handler ∧
        handler.handle state.invocations invocation = .ok response ∧
        Within state.profile.limits.outputSizeLimit response.length ∧ delivered response)
  concurrentCalls : state'.concurrentCalls = state.concurrentCalls
  callDepth : state'.callDepth = state.callDepth

section

variable (hcases : CallCases blake3Hex memory call state state' reaches ending)
  (hreaches : ∀ {handler invocation}, reaches handler invocation →
    Reaches blake3Hex memory call moment state handler invocation)
include hcases hreaches

/-- Mediation comes down to the invocation a call makes. -/
theorem CallCases.mediated_iff {delivered : List UInt8 → Prop}
    (hdetermined : ∀ {handler invocation event event'}, ending handler invocation event →
      ending handler invocation event' → (event.succeeded = true ↔ event'.succeeded = true)) :
    Mediated blake3Hex memory call moment state state' delivered ↔
      ∀ handler invocation, reaches handler invocation →
        (invocation.capability.name = "file.read" ∧ invocation.operation = "read" →
          Within state.profile.limits.payloadSizeLimit invocation.payload.length) ∧
        ∀ event, ending handler invocation event →
          (event.succeeded = true ↔ ∃ response,
            handler.handle state.invocations invocation = .ok response ∧
            Within state.profile.limits.outputSizeLimit response.length ∧ delivered response) := by
  cases hcases with
  | unread diagnostic hdecode heq =>
    subst heq
    refine iff_of_true ⟨⟨[], (append_nil _).symm, by simp⟩, fun metadata hok => ?_, rfl, rfl⟩
      fun handler invocation h => ?_
    · rw [hdecode] at hok
      cases hok
    · obtain ⟨metadata, hok, -⟩ := hreaches h
      rw [hdecode] at hok
      cases hok
  | denied metadata event hdecode hnone hsettles hfailed =>
    refine iff_of_true ⟨⟨[], hsettles.invocations, by simp⟩, fun metadata' hok => ?_,
      hsettles.concurrentCalls, hsettles.callDepth⟩ fun handler invocation h =>
        absurd h (hnone handler invocation)
    cases hdecode.symm.trans hok
    refine ⟨event, hsettles.auditLog, hsettles.capability, hsettles.operation, ?_⟩
    simp [hfailed, hsettles.invocations]
  | invoked metadata handler invocation event hdecode hreached hsettles hending =>
    have hsame : ∀ {found}, state'.invocations = state.invocations ++ [found] ↔
        invocation = found := by
      intro found
      rw [hsettles.invocations, append_cancel_left_eq, singleton_inj]
    have hbound : state.handlerFor invocation.capability = some handler := by
      obtain ⟨_, -, -, hbound, _, -, rfl⟩ := hreaches hreached
      exact hbound
    constructor
    · intro hmediated handler' invocation' h
      obtain ⟨rfl, rfl⟩ := (hreaches hreached).unique (hreaches h)
      obtain ⟨invoked, hinvoked, hallowed⟩ := hmediated.invoked
      rw [hsettles.invocations, append_cancel_left_eq] at hinvoked
      subst hinvoked
      refine ⟨fun _ => (hallowed _ (.head _)).2, fun event' hending' => ?_⟩
      obtain ⟨logged, hlog, -, -, hsucceeded⟩ := hmediated.audited metadata hdecode
      rw [hsettles.auditLog, append_cancel_left_eq, singleton_inj] at hlog
      subst hlog
      rw [hdetermined hending' hending]
      simpa [hsame, hbound] using hsucceeded
    · intro hright
      obtain ⟨hpayload, hsucceeded⟩ := hright _ _ hreached
      refine ⟨⟨_, hsettles.invocations, fun found hmem => ?_⟩, fun metadata' hok => ?_,
        hsettles.concurrentCalls, hsettles.callDepth⟩
      · obtain rfl := mem_singleton.1 hmem
        refine ⟨(hreaches hreached).allowed, ?_⟩
        by_cases hread : found.capability.name = "file.read" ∧ found.operation = "read"
        · exact hpayload hread
        · exact (hreaches hreached).within hread
      · cases hdecode.symm.trans hok
        refine ⟨event, hsettles.auditLog, hsettles.capability, hsettles.operation, ?_⟩
        rw [hsucceeded event hending]
        simp [hsame, hbound]

theorem CallCases.exists_ending (h : reaches handler invocation) :
    ∃ event, ending handler invocation event := by
  cases hcases with
  | unread diagnostic hdecode heq =>
    obtain ⟨metadata, hok, -⟩ := hreaches h
    rw [hdecode] at hok
    cases hok
  | denied metadata event hdecode hnone hsettles hfailed => exact absurd h (hnone _ _)
  | invoked metadata handler' invocation' event hdecode hreached hsettles hending =>
    obtain ⟨rfl, rfl⟩ := (hreaches hreached).unique (hreaches h)
    exact ⟨event, hending⟩

end

/-- The value is made of the first eight bytes of the response. -/
def Returned (value : Option Int64) (response : List UInt8) : Prop :=
  8 ≤ response.length ∧ value = some (i64FromLeBytes (response.take 8))

variable (blake3Hex memory call moment state) in
theorem dispatchHostCall_mediated_iff : Mediated blake3Hex memory call moment state
        (dispatchHostCall blake3Hex memory call moment state).2
        (Returned (dispatchHostCall blake3Hex memory call moment state).1) ↔
      ∀ handler invocation, Reaches blake3Hex memory call moment state handler invocation →
        (invocation.capability.name = "file.read" ∧ invocation.operation = "read" →
          Within state.profile.limits.payloadSizeLimit invocation.payload.length) ∧
        ∀ response, handler.handle state.invocations invocation = .ok response →
          Within state.profile.limits.outputSizeLimit response.length → 8 ≤ response.length := by
  have hcases := dispatchHostCall_cases blake3Hex memory call moment state
  rw [hcases.mediated_iff id fun hending hending' => hending.1.trans hending'.1.symm]
  refine forall_congr' fun handler => forall_congr' fun invocation => forall_congr'
    fun hreaches => ?_
  refine and_congr_right fun _ => ?_
  constructor
  · intro hdelivered response hok hwithin
    obtain ⟨event, hending⟩ := hcases.exists_ending id hreaches
    obtain ⟨found, hfound, -, hlong, -⟩ :=
      (hdelivered event hending).1 (hending.1.2 ⟨response, hok, hwithin⟩)
    cases hok.symm.trans hfound
    exact hlong
  · intro hlong event hending
    refine hending.1.trans ⟨?_, ?_⟩
    · rintro ⟨response, hok, hwithin⟩
      refine ⟨response, hok, hwithin, hlong response hok hwithin, ?_⟩
      rw [hending.2 response hok hwithin, if_pos (hlong response hok hwithin)]
    · rintro ⟨response, hok, hwithin, -⟩
      exact ⟨response, hok, hwithin⟩

end

/-! ## Sequences of calls -/

/-- Either host function. -/
inductive GuestCall where
  | call (call : HostCall)
  | write (call : HostCall) (outPtr outMax : Int32)

/-- A call with what may have changed since the last one: the guest's
memory, the revocations, the time. -/
structure Served where
  call : GuestCall
  memory : GuestMemory
  revocations : List RevocationRecord
  moment : Moment

/-- What the guest gets back. -/
inductive Reply where
  | value (value : Option Int64)
  | written (length : Option Int32) (memory : GuestMemory)

def serve (blake3Hex : List UInt8 → String) (state : HostState) (served : Served) :
    HostState × Reply :=
  let current := { state with revocations := served.revocations }
  match served.call with
  | .call call =>
    let (value, after) := dispatchHostCall blake3Hex served.memory call served.moment current
    (after, .value value)
  | .write call outPtr outMax =>
    let (length, after, memory) :=
      dispatchHostCallWrite blake3Hex served.memory call outPtr outMax served.moment current
    (after, .written length memory)

/-- How a call counts: it does not, or it takes one of the calls that are
left and invokes at most one handler. -/
def Counts (state state' : HostState) : Prop :=
  state'.profile = state.profile ∧ ∃ invoked, state'.invocations = state.invocations ++ invoked ∧
    ((invoked = [] ∧ state'.capabilityCallsUsed = state.capabilityCallsUsed) ∨
      (invoked.length ≤ 1 ∧ state'.capabilityCallsUsed = state.capabilityCallsUsed + 1 ∧
        Below state.profile.limits.maxCapabilityCalls state.capabilityCallsUsed))

theorem CallCases.counts {blake3Hex : List UInt8 → String} {memory : GuestMemory}
    {call : HostCall} {state : HostState}
    (hcases : CallCases blake3Hex memory call state state' reaches ending) :
    Counts state state' := by
  cases hcases with
  | unread diagnostic hdecode heq =>
    subst heq
    exact ⟨rfl, [], (append_nil _).symm, .inl ⟨rfl, rfl⟩⟩
  | denied metadata event hdecode hnone hsettles hfailed =>
    exact ⟨hsettles.profile, [], hsettles.invocations, hsettles.counted⟩
  | invoked metadata handler invocation event hdecode hreached hsettles hending =>
    exact ⟨hsettles.profile, [invocation], hsettles.invocations, hsettles.counted⟩

/-- One served call, counted. -/
theorem serve_counts (blake3Hex : List UInt8 → String) (state : HostState) (served : Served) :
    Counts state (serve blake3Hex state served).1 := by
  unfold serve
  cases served.call with
  | call call =>
    exact (dispatchHostCall_cases blake3Hex served.memory call served.moment
      { state with revocations := served.revocations }).counts
  | write call outPtr outMax =>
    exact (dispatchHostCallWrite_cases blake3Hex served.memory call served.moment
      { state with revocations := served.revocations } outPtr outMax).counts

/-- The invocations made so far are covered by the calls counted, and
those by the limit. -/
def Budget (initial : HostState) (limit : UInt64) (state : HostState) : Prop :=
  state.profile = initial.profile ∧ ∃ invoked, state.invocations = initial.invocations ++ invoked ∧
    invoked.length ≤ state.capabilityCallsUsed.toNat ∧
    (invoked = [] ∨ state.capabilityCallsUsed.toNat ≤ limit.toNat)

theorem Budget.step {initial state : HostState} {limit : UInt64}
    (hlimit : initial.profile.limits.maxCapabilityCalls = some limit)
    (hbudget : Budget initial limit state) (hcounts : Counts state state') :
    Budget initial limit state' := by
  obtain ⟨hprofile, invoked, hinvoked, hcovered, hmost⟩ := hbudget
  obtain ⟨hprofile', new, hnew, ⟨rfl, hused⟩ | ⟨hone, hused, hbelow⟩⟩ := hcounts
  · refine ⟨hprofile'.trans hprofile, invoked, ?_, ?_⟩
    · rw [hnew, hinvoked, append_nil]
    · rw [hused]
      exact ⟨hcovered, hmost⟩
  · have hleft : state.capabilityCallsUsed.toNat < limit.toNat :=
      hbelow limit (by rw [hprofile, hlimit])
    have hcounted : state'.capabilityCallsUsed.toNat = state.capabilityCallsUsed.toNat + 1 := by
      have hsmall := limit.toNat_lt
      rw [hused]
      exact Nat.mod_eq_of_lt (by simp; omega)
    refine ⟨hprofile'.trans hprofile, invoked ++ new, ?_, ?_, ?_⟩
    · rw [hnew, hinvoked, append_assoc]
    · rw [length_append]
      omega
    · exact .inr (by omega)

/-- A whole run stays within its budget of calls. -/
theorem run_invocations_le (blake3Hex : List UInt8 → String) (initial : HostState) {limit : UInt64}
    (hlimit : initial.profile.limits.maxCapabilityCalls = some limit) (served : List Served) :
    ∃ invoked, (run (serve blake3Hex) initial served).1.invocations =
        initial.invocations ++ invoked ∧ invoked.length ≤ limit.toNat := by
  have hbudget : Budget initial limit (run (serve blake3Hex) initial served).1 :=
    @run_induction _ _ _ (serve blake3Hex) initial (fun state _ => Budget initial limit state)
      ⟨rfl, [], (append_nil _).symm, Nat.zero_le _, .inl rfl⟩
      (fun state _ input hbudget => hbudget.step hlimit (serve_counts blake3Hex state input)) served
  obtain ⟨-, invoked, hinvoked, hcovered, rfl | hmost⟩ := hbudget
  · exact ⟨[], hinvoked, Nat.zero_le _⟩
  · exact ⟨invoked, hinvoked, hcovered.trans hmost⟩

/-- When calls are mediated: `host_call` exactly if the text of a
`file.read` is within the payload limit and a response within the output
limit has eight bytes, `host_call_write` exactly if the former is so. Over
any sequence of calls the handlers are not invoked more often than the
profile allows. -/
theorem capability_calls_mediated_iff (blake3Hex : List UInt8 → String) :
    (∀ (memory : GuestMemory) (call : HostCall) (moment : Moment) (state : HostState),
      Mediated blake3Hex memory call moment state
          (dispatchHostCall blake3Hex memory call moment state).2
          (Returned (dispatchHostCall blake3Hex memory call moment state).1) ↔
        ∀ handler invocation, Reaches blake3Hex memory call moment state handler invocation →
          (invocation.capability.name = "file.read" ∧ invocation.operation = "read" →
            Within state.profile.limits.payloadSizeLimit invocation.payload.length) ∧
          ∀ response, handler.handle state.invocations invocation = .ok response →
            Within state.profile.limits.outputSizeLimit response.length → 8 ≤ response.length) ∧
    (∀ (memory : GuestMemory) (call : HostCall) (outPtr outMax : Int32) (moment : Moment)
        (state : HostState),
      Mediated blake3Hex memory call moment state
          (dispatchHostCallWrite blake3Hex memory call outPtr outMax moment state).2.1
          (Written memory outPtr
            ((dispatchHostCallWrite blake3Hex memory call outPtr outMax moment state).1,
              (dispatchHostCallWrite blake3Hex memory call outPtr outMax moment state).2.2)) ↔
        ∀ handler invocation, ¬(outPtr < 0 ∨ outMax < 0) →
          Reaches blake3Hex memory call moment state handler invocation →
          invocation.capability.name = "file.read" ∧ invocation.operation = "read" →
            Within state.profile.limits.payloadSizeLimit invocation.payload.length) ∧
    ∀ (initial : HostState) (limit : UInt64),
      initial.profile.limits.maxCapabilityCalls = some limit →
      ∀ served, ∃ invoked, (run (serve blake3Hex) initial served).1.invocations =
        initial.invocations ++ invoked ∧ invoked.length ≤ limit.toNat := by
  refine ⟨dispatchHostCall_mediated_iff blake3Hex, fun memory call outPtr outMax moment state => ?_,
    fun initial _ hlimit served => run_invocations_le blake3Hex initial hlimit served⟩
  -- What is written was delivered, so that only the payload is left to ask for.
  have hcases := dispatchHostCallWrite_cases blake3Hex memory call moment state outPtr outMax
  rw [hcases.mediated_iff (·.2) fun hending hending' => hending.trans hending'.symm]
  refine forall_congr' fun handler => forall_congr' fun invocation => ?_
  rw [and_imp]
  exact forall_congr' fun _ => forall_congr' fun _ => and_iff_left fun _ hending => hending

/-! ## Two calls that are not mediated -/

/-- A module `m` that may use one capability, answered by a handler that
always gives the same response. -/
def hostWith (capability : CapabilityId) (limits : ResourceLimits) (response : List UInt8) :
    HostState where
  handlers := [⟨"fixed", [capability], fun _ _ => .ok response⟩]
  profile := ⟨"dev", "", [⟨"m", capability⟩], limits⟩
  moduleName := "m"
  auditLog := []
  dispatchResultDiagnostics := []
  traceContext := none
  capabilityCallsUsed := 0
  revocations := []
  rateLimitWindows := ∅
  concurrentCalls := 0
  callDepth := 0
  invocations := []

def midnight : Moment := ⟨0, 0, 0, ""⟩

/-- `clock` and `now`, no arguments. -/
def clockMemory : GuestMemory := some "clocknow".toUTF8.data.toList

def clockCall : HostCall := ⟨0, 5, 5, 3, 0, 0⟩

/-- `file.read` and `read`, then the packed text: sixteen bytes from the
start of the memory. -/
def fileMemory : GuestMemory :=
  some ("file.readread".toUTF8.data.toList ++ [0, 0, 0, 0, 16, 0, 0, 0])

def fileCall : HostCall := ⟨0, 9, 9, 4, 13, 1⟩

/-- An empty response counts as a success, although the guest gets 0 for
want of a result; and a path of sixteen bytes is passed on under a limit
of eight. -/
theorem mediation_fails :
    ((dispatchHostCall plainDigest clockMemory clockCall midnight
        (hostWith ⟨"clock"⟩ {} [])).1 = some 0 ∧
      (dispatchHostCall plainDigest clockMemory clockCall midnight
        (hostWith ⟨"clock"⟩ {} [])).2.auditLog.map (·.succeeded) = [true] ∧
      ¬Mediated plainDigest clockMemory clockCall midnight (hostWith ⟨"clock"⟩ {} [])
        (dispatchHostCall plainDigest clockMemory clockCall midnight
          (hostWith ⟨"clock"⟩ {} [])).2
        (Returned (dispatchHostCall plainDigest clockMemory clockCall midnight
          (hostWith ⟨"clock"⟩ {} [])).1)) ∧
    ((dispatchHostCall plainDigest fileMemory fileCall midnight
        (hostWith ⟨"file.read"⟩ { payloadSizeLimit := some 8 } [])).2.invocations.map
          (·.payload.length) = [16] ∧
      ¬Mediated plainDigest fileMemory fileCall midnight
        (hostWith ⟨"file.read"⟩ { payloadSizeLimit := some 8 } [])
        (dispatchHostCall plainDigest fileMemory fileCall midnight
          (hostWith ⟨"file.read"⟩ { payloadSizeLimit := some 8 } [])).2
        (Returned (dispatchHostCall plainDigest fileMemory fileCall midnight
          (hostWith ⟨"file.read"⟩ { payloadSizeLimit := some 8 } [])).1)) := by
  refine ⟨⟨by decide, by decide, fun hmediated => ?_⟩, by decide, fun hmediated => ?_⟩
  · have hreaches : Reaches plainDigest clockMemory clockCall midnight (hostWith ⟨"clock"⟩ {} [])
        ⟨"fixed", [⟨"clock"⟩], fun _ _ => .ok []⟩ ⟨⟨"clock"⟩, "now", []⟩ :=
      ⟨⟨⟨"clock"⟩, "now", []⟩, by decide, by decide, rfl, [], by decide, rfl⟩
    have hlong := ((dispatchHostCall_mediated_iff _ _ _ _ _).1 hmediated _ _ hreaches).2 [] rfl
      (by intro _ hlimit; cases hlimit)
    exact absurd hlong (by decide)
  · have hreaches : Reaches plainDigest fileMemory fileCall midnight
        (hostWith ⟨"file.read"⟩ { payloadSizeLimit := some 8 } [])
        ⟨"fixed", [⟨"file.read"⟩], fun _ _ => .ok []⟩
        ⟨⟨"file.read"⟩, "read", (fileMemory.getD []).take 16⟩ :=
      ⟨⟨⟨"file.read"⟩, "read", [0, 0, 0, 0, 16, 0, 0, 0]⟩, by decide, by decide, rfl, _, by decide,
        rfl⟩
    have hwithin := ((dispatchHostCall_mediated_iff _ _ _ _ _).1 hmediated _ _ hreaches).1
      (by decide) 8 rfl
    exact absurd hwithin (by decide)

end Ail.Runtime.HostDispatch
