import Ail.Compiler.VariantTags
import Ail.Runtime.Codec

/-!
# Typed results of an invocation

The CLI reads the value an export returns by the descriptor the compiler
derives from the binding (`run_commands/invoke.rs`); the runtime decodes
it. The emitter numbers the tags of variants per function, with two
numbers reserved, and the decoder takes the number as an index into the
tags of the descriptor, of which there is one.
-/

namespace Ail.Cli

open Ail.Core Compiler Runtime.Codec Lib Lib.Wasm

mutual

def valueLayoutFromWasmDescriptor : WasmTypeDescriptor → ValueLayout
  | .scalar _ => .scalar
  | .text => .text
  | .bytes => .bytes
  | .record fields => .record fields
  | .variant tags => .variant tags
  | .tuple elems => .tuple (valueLayouts elems)
  | .list inner => .list (valueLayoutFromWasmDescriptor inner)
  | .option inner => .option (valueLayoutFromWasmDescriptor inner)
  | .result ok err =>
    .result (valueLayoutFromWasmDescriptor ok) (valueLayoutFromWasmDescriptor err)
  | .handle => .handle

def valueLayouts : List WasmTypeDescriptor → List ValueLayout
  | [] => []
  | elem :: elems => valueLayoutFromWasmDescriptor elem :: valueLayouts elems

end

/-- The value an export returned, decoded as the CLI does. -/
def typedResult (binding : AnfBinding) (results : List Val) (memory : Memory) : StructuredValue :=
  decodeReturned (valueLayoutFromWasmDescriptor (deriveWasmType binding.expr)) results memory

/-! ## Decoding a constructed variant -/

/-- Below the sign bit a 32-bit address is a pointer. -/
theorem ptrFromRaw_address {base : BitVec 32} (hlow : base.toNat < 2 ^ 31) :
    ptrFromRaw (.ofInt base.toInt) = some base.toNat := by
  have hint : base.toInt = base.toNat := by
    rw [BitVec.toInt_eq_toNat_cond, if_pos (by omega)]
  have hraw : (Int64.ofInt base.toInt).toInt = base.toNat := by
    rw [hint, Int64.toInt_ofInt_of_le (by omega) (by omega)]
  rw [ptrFromRaw, hraw, if_pos (by omega), Int.toNat_natCast]

theorem usizeFromI32_eq_zero {word : Nat} (hword : word < 2 ^ 32) :
    usizeFromI32 (.ofNat word) = 0 ↔ word = 0 := by
  have hint : (Int32.ofNat word).toInt = (word : Int).bmod (2 ^ 32) := Int32.toInt_ofNat ..
  unfold usizeFromI32
  rw [hint, Int.bmod_def]
  split <;> omega

/-- One tag is found at index 0 only. -/
theorem decodeVariant_singleton {memory : Memory} {ptr word : Nat} {n : Int64} {tag : String}
    (hlow : word < 2 ^ 32) (hword : memory.load ptr 4 = some word)
    (hpayload : memory.load (ptr + 8) 8 = some n.toBitVec.toNat) :
    decodeVariant [tag] ptr memory = .variant tag (some (.scalar n)) ↔ word = 0 := by
  have hn : readI64At memory (ptr + 8) = some n := by
    rw [readI64At, hpayload]
    exact congrArg some (Int64.ofNat_bitVecToNat n.toBitVec)
  have hindex : readI32At memory ptr = some (.ofNat word) := by
    rw [readI32At, hword, Option.map_some]
  have hdecoded : decodeVariant [tag] ptr memory =
      orUnit ([tag][usizeFromI32 (.ofNat word)]?.map fun tag =>
        .variant tag (some (.scalar n))) := by
    rw [decodeVariant, hindex, hn, Option.bind_eq_bind, Option.bind_some]
    cases [tag][usizeFromI32 (.ofNat word)]? <;> rfl
  rw [hdecoded, ← usizeFromI32_eq_zero hlow]
  cases usizeFromI32 (.ofNat word) with
  | zero => simp [orUnit]
  | succ index => simp [orUnit]

/-- What a constructor left on the stack and in memory decodes to its tag
only where the tag's discriminant is 0. -/
theorem decode_constructed {memory : Memory} {base : BitVec 32} {word : Nat} {n : Int64}
    {tag : String} (hbound : base.toNat < 2 ^ 31) (hlow : word < 2 ^ 32)
    (hword : memory.load base.toNat 4 = some word)
    (hpayload : memory.load (base.toNat + 8) 8 = some n.toBitVec.toNat) :
    decodeReturned (.variant [tag]) [.i32 base] memory = .variant tag (some (.scalar n)) ↔
      word = 0 := by
  rw [decodeReturned, decode, atPtr, ptrFromRaw_address hbound]
  exact decodeVariant_singleton hlow hword hpayload

/-! ## Invocations -/

section Invocation

variable {bindings : List AnfBinding} {wasm : WasmModule} {i : Nat} {binding : AnfBinding}
  {lets : List (String × AnfExpr)} {tag : String} {n : Int64} {payload : AnfExpr}

/-- A variant is returned by its address. -/
theorem bindingResult_constructor
    (hbody : bindingBody binding = letsIn lets (.variantNew tag (some payload))) :
    bindingResult binding = some .i32 := by
  rw [bindingResult, hbody, inferExprType_letsIn lets (fun _ => rfl)]
  rfl

/-- The descriptor of a constructor application has its tag and no other. -/
theorem deriveWasmType_constructor
    (hbody : bindingBody binding = letsIn lets (.variantNew tag (some payload))) :
    deriveWasmType binding.expr = .variant [tag] := by
  have hderived : ∀ locals, deriveWasmTypeWithLocals (bindingBody binding) locals =
      .variant [tag] := by
    intro locals
    rw [hbody]
    exact deriveWasmType_letsIn lets (fun _ => rfl) locals
  unfold bindingBody at hderived
  rw [deriveWasmType]
  split at hderived
  next params captures body hexpr =>
    rw [hexpr]
    exact hderived _
  next => exact hderived []

/-- The constructor at the end of a body, in the code of its function. -/
theorem bindingFunction_constructor {η : Type} (env : CodeEnv)
    (hbody : bindingBody binding = letsIn lets (.variantNew tag (some payload)))
    (hpayload : IntPayload n lets payload) (hoisted closureHoisted : Nat) :
    ∃ id,
      TagFits (bindingRun env binding hoisted closureHoisted).state.nextVariantTag tag id ∧
      ∀ (link : Linkage η) (machine final : Machine η),
        execAll link (bindingFunction env binding hoisted closureHoisted).body machine =
          .next final → Constructed id n.toBitVec final := by
  let ctx := env.newCtx (allParams binding) hoisted closureHoisted
  -- the result of the body is returned, so nothing is dropped behind it
  have hrun : bindingRun env binding hoisted closureHoisted =
      (emitAnfExpr env.functions (bindingBody binding) >>= fun _ => pure ()).run ctx := by
    rw [bindingRun, emitBindingBody, bindingResult_constructor hbody]
    rfl
  have hitems : (bindingFunction env binding hoisted closureHoisted).body =
      ((emitAnfExpr env.functions (bindingBody binding)).run ctx).items := by
    rw [bindingFunction, hrun]
    exact List.append_nil _
  rw [hitems, hrun, hbody]
  exact emit_constructor hpayload env.functions tag
    (tagsKept_new (allParams binding) env.effectData env.foldReducerTypeIdx
      env.closureReducerTypeIdx env.functionOffset hoisted closureHoisted)

/-- A body that is a constructor application with an `Int` payload, under
any lets: where control reaches its end, the export returns, and what it
returns decodes to that tag and payload exactly when the tag is `None` or
`Ok`. The descriptor has one tag, at index 0, and those are the tags with
discriminant 0.

`hcounter` keeps the counter of discriminants in the range of its type in
the source. A run that leaves the body early, through a `return` in the
value of a let, never gets to the constructor. -/
theorem returned_variant_decodes_iff {η : Type} (hemit : emitWasm bindings = .ok wasm)
    (hbinding : bindings[i]? = some binding)
    (hbody : bindingBody binding = letsIn lets (.variantNew tag (some payload)))
    (hpayload : IntPayload n lets payload)
    (hcounter : ∀ hoisted closureHoisted,
      (bindingRun (codeEnvOf bindings) binding hoisted closureHoisted).state.nextVariantTag ≤
        2 ^ 32)
    {host : Nat → List Val → Store η → Reply η}
    (hhost : ∀ func args results store store', host func args store = .done results store' →
      store'.memory.size = store.memory.size)
    {fuel : Nat} {args : List Val} {store : Store η} (hpages : store.memory.size ≤ 2 ^ 31)
    {function : Function} (hfunction : wasm.code.functions[i]? = some function)
    {final : Machine η}
    (hrun : function.run (wasm.code.linkage (invoke wasm.code host fuel) fuel) args store =
      .next final) :
    ∃ result,
      invoke wasm.code host (fuel + 1) (wasm.code.imports.length + i) args store =
        .done [result] final.store ∧
      (typedResult binding [result] final.store.memory = .variant tag (some (.scalar n)) ↔
        tag = "None" ∨ tag = "Ok") := by
  obtain ⟨hoisted, closureHoisted, hfound⟩ := emitWasm_getElem hemit hbinding
  cases hfunction.symm.trans hfound
  obtain ⟨id, hfits, hconstructed⟩ :=
    bindingFunction_constructor (codeEnvOf bindings) hbody hpayload hoisted closureHoisted
  have hid : id < 2 ^ 32 := hfits.lt (by decide) (hcounter hoisted closureHoisted)
  have hsize := run_memory_size hhost hrun
  obtain ⟨base, rest, hstack, hword, hn, hbound⟩ := hconstructed _ _ _ hrun
  rw [Nat.mod_eq_of_lt hid] at hword
  refine ⟨.i32 base, ?_, ?_⟩
  · have hresults :
        (bindingFunction (codeEnvOf bindings) binding hoisted closureHoisted).type.results =
          [.i32] := by
      rw [bindingFunction, bindingSignature, bindingResult_constructor hbody]
      rfl
    rw [invoke, if_neg (by omega), Nat.add_sub_cancel_left, hfunction]
    simp only [hrun, finish, hresults, hstack]
    rfl
  · rw [typedResult, deriveWasmType_constructor hbody, ← hfits.eq_zero_iff]
    exact decode_constructed (by omega) hid hword hn

end Invocation

/-- A binding whose body is a constructor application under a let. -/
def constructing (tag : String) (n : Int64) : AnfBinding :=
  { sourceRef := ⟨0⟩
    name := "fn.main"
    expr := .letIn "x" (.literal (.int 1)) (.variantNew tag (some (.literal (.int n)))) }

/-- A host that answers no call. -/
def noHost : Nat → List Val → Store Unit → Reply Unit := fun _ _ _ => .trap

/-- Compile one binding without parameters, run it and decode its value. -/
def compileAndRun (binding : AnfBinding) : Option StructuredValue :=
  match emitWasm [binding] with
  | .error _ => none
  | .ok wasm =>
    match invoke wasm.code noHost 1 wasm.code.imports.length [] (wasm.initialStore ()) with
    | .done results store => some (typedResult binding results store.memory)
    | _ => none

/-- The tag and the scalar payload of a variant. -/
def asVariant : StructuredValue → Option (String × Int64)
  | .variant tag (some (.scalar n)) => some (tag, n)
  | _ => none

/-- `Some(7)` does not come back: its discriminant is 1 and the descriptor
has one tag. -/
theorem returned_some_is_lost :
    (compileAndRun (constructing "Some" 7)).isSome ∧
      compileAndRun (constructing "Some" 7) ≠ some (.variant "Some" (some (.scalar 7))) := by
  refine ⟨by decide +kernel, fun hback => ?_⟩
  have hlost : (compileAndRun (constructing "Some" 7)).bind asVariant = none := by
    decide +kernel
  rw [hback] at hlost
  cases hlost

/-- The machine at the end of the body of a single binding. -/
def finalMachine (binding : AnfBinding) : Option (Machine Unit) :=
  match emitWasm [binding] with
  | .error _ => none
  | .ok wasm => wasm.code.functions[0]?.bind fun function =>
    (function.run (wasm.code.linkage (invoke wasm.code noHost 0) 0) []
      (wasm.initialStore ())).machine?

theorem returned_ok_decodes :
    ∃ wasm result store, emitWasm [constructing "Ok" 7] = .ok wasm ∧
      invoke wasm.code noHost 1 wasm.code.imports.length [] (wasm.initialStore ()) =
        .done [result] store ∧
      typedResult (constructing "Ok" 7) [result] store.memory =
        .variant "Ok" (some (.scalar 7)) := by
  obtain ⟨wasm, hwasm⟩ : ∃ wasm, emitWasm [constructing "Ok" 7] = .ok wasm := ⟨_, rfl⟩
  obtain ⟨final, hfinal⟩ : ∃ final, finalMachine (constructing "Ok" 7) = some final :=
    Option.isSome_iff_exists.mp (by decide +kernel)
  unfold finalMachine at hfinal
  rw [hwasm] at hfinal
  obtain ⟨function, hfunction, hmachine⟩ := Option.bind_eq_some_iff.mp hfinal
  have hbinding : [constructing "Ok" 7][0]? = some (constructing "Ok" 7) := rfl
  have hbody : bindingBody (constructing "Ok" 7) =
      letsIn [("x", .literal (.int 1))] (.variantNew "Ok" (some (.literal (.int 7)))) := rfl
  have hcounter : ∀ hoisted closureHoisted,
      (bindingRun (codeEnvOf [constructing "Ok" 7]) (constructing "Ok" 7) hoisted
        closureHoisted).state.nextVariantTag ≤ 2 ^ 32 :=
    fun _ _ => Nat.le_trans (Nat.le_of_eq rfl) (show 2 ≤ 2 ^ 32 by decide)
  obtain ⟨result, hinvoke, hdecoded⟩ :=
    returned_variant_decodes_iff hwasm hbinding hbody (.literal _) hcounter
      (fun _ _ _ _ _ hcall => by cases hcall) (wasm.initialStore_size_le ()) hfunction
      (Outcome.machine?_eq_some.mp hmachine)
  exact ⟨wasm, result, final.store, hwasm, hinvoke, hdecoded.mpr (.inr rfl)⟩

end Ail.Cli
