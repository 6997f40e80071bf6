import Ail.Compiler.WasmEmit
import Ail.Lib.Outcome

/-!
# Emitting a module

`emit_wasm_with_profile` (`wasm/emit.rs`) with what it calls: the gates on
unsupported constructs, the lambdas that become functions of their own
(`wasm/lambdas.rs`), the sections (`wasm_sections.rs`) and the code of
every function (`wasm_emit/builder.rs`). Hashes, source maps and
manifests are left out: they do not change the module.
-/

namespace Ail.Compiler

open Ail.Core Lib Lib.Wasm

/-! ## Walks over expressions -/

section Walk

variable {α : Type} (descend : AnfExpr → Bool) (pick : AnfExpr → Option α)

/-- What is picked at one expression, before what is picked below it. -/
def pickAt (e : AnfExpr) (below : List α) : List α :=
  (pick e).toList ++ if descend e then below else []

mutual

/-- What is picked from the expressions met by a depth-first walk, in order;
the walk goes below an expression where `descend` holds. No walk of the
source goes below a `select`. -/
def AnfExpr.walk : AnfExpr → List α
  | .letIn name value body =>
    pickAt descend pick (.letIn name value body) (value.walk ++ body.walk)
  | .ifElse cond thenBranch elseBranch =>
    pickAt descend pick (.ifElse cond thenBranch elseBranch) (thenBranch.walk ++ elseBranch.walk)
  | .returnWith e => pickAt descend pick (.returnWith e) e.walk
  | .loop e => pickAt descend pick (.loop e) e.walk
  | .breakWith e => pickAt descend pick (.breakWith e) e.walk
  | .taskGroup e => pickAt descend pick (.taskGroup e) e.walk
  | .lambda params captures e => pickAt descend pick (.lambda params captures e) e.walk
  | .fieldUpdate record field e => pickAt descend pick (.fieldUpdate record field e) e.walk
  | .whileLoop cond e => pickAt descend pick (.whileLoop cond e) e.walk
  | .shortCircuitAnd left e => pickAt descend pick (.shortCircuitAnd left e) e.walk
  | .shortCircuitOr left e => pickAt descend pick (.shortCircuitOr left e) e.walk
  | .timeout duration e => pickAt descend pick (.timeout duration e) e.walk
  | .forEach binding collection e => pickAt descend pick (.forEach binding collection e) e.walk
  | .seq exprs => pickAt descend pick (.seq exprs) (AnfExpr.walkAll exprs)
  | .tupleNew exprs => pickAt descend pick (.tupleNew exprs) (AnfExpr.walkAll exprs)
  | .listNew exprs => pickAt descend pick (.listNew exprs) (AnfExpr.walkAll exprs)
  | .matchOn scrutinee arms =>
    pickAt descend pick (.matchOn scrutinee arms) (AnfExpr.walkFields arms)
  | .recordNew fields => pickAt descend pick (.recordNew fields) (AnfExpr.walkFields fields)
  | .variantNew tag payload =>
    pickAt descend pick (.variantNew tag payload) (AnfExpr.walkOption payload)
  | e => (pick e).toList

def AnfExpr.walkAll : List AnfExpr → List α
  | [] => []
  | e :: es => e.walk ++ AnfExpr.walkAll es

def AnfExpr.walkFields : List (String × AnfExpr) → List α
  | [] => []
  | (_, e) :: fields => e.walk ++ AnfExpr.walkFields fields

def AnfExpr.walkOption : Option AnfExpr → List α
  | none => []
  | some e => e.walk

end

end Walk

def unsupportedName : AnfExpr → Option String
  | .dispatch _ _ _ => some "Dispatch"
  | .taskSpawn _ _ => some "TaskSpawn"
  | .taskAwait _ => some "TaskAwait"
  | .taskCancel _ => some "TaskCancel"
  | .taskGroup _ => some "TaskGroup"
  | .channelNew _ => some "ChannelNew"
  | .channelSend _ _ => some "ChannelSend"
  | .channelReceive _ => some "ChannelReceive"
  | .select _ => some "Select"
  | .timeout _ _ => some "Timeout"
  | _ => none

def firstUnsupportedWasmConstruct (expr : AnfExpr) : Option String :=
  (expr.walk (fun e => (unsupportedName e).isNone) unsupportedName).head?

def anfHasFold (expr : AnfExpr) : Bool :=
  !(expr.walk (fun _ => true) fun
    | .fold _ _ _ => some ()
    | _ => none).isEmpty

/-- The walks over lambdas do not go below a task group or a timeout. -/
def isTaskBlock : AnfExpr → Bool
  | .taskGroup _ | .timeout _ _ => true
  | _ => false

/-- A lambda: its parameters, its captures and its body. -/
abbrev LambdaParts := List String × List String × AnfExpr

def lambdaParts : AnfExpr → Option LambdaParts
  | .lambda params captures body => some (params, captures, body)
  | _ => none

def exprContains2ParamLambda (expr : AnfExpr) : Bool :=
  (expr.walk (fun e => !isTaskBlock e) lambdaParts).any (·.1.length = 2)

/-- The lambdas of a binding's body that are not inside another lambda. -/
def nestedLambdas (binding : AnfBinding) : List LambdaParts :=
  (bindingBody binding).walk (fun e => !isTaskBlock e && (lambdaParts e).isNone) lambdaParts

variable (bindings : List AnfBinding)

def collectHoistableLambdas : List LambdaParts :=
  (bindings.flatMap nestedLambdas).filter fun (params, captures, _) =>
    params.length = 2 ∧ captures.isEmpty

def collectClosureHoistableLambdas : List LambdaParts :=
  (bindings.flatMap nestedLambdas).filter fun (params, captures, _) =>
    params.length = 2 ∧ ¬ captures.isEmpty

/-! ## Folds with a reducer of the wrong shape -/

section FoldGate

variable (bad : List String → List String → Bool)

/-- The names of reducers, after a `let`: a bad lambda and an alias of one
are added, and a name once added stays. -/
def badReducers (name : String) (value : AnfExpr) (names : List String) : List String :=
  match value with
  | .lambda params captures _ => if bad params captures then name :: names else names
  | .var source => if source ∈ names then name :: names else names
  | _ => names

mutual

/-- `none` where a fold uses a bad reducer, else the names known after the
expression. Branches and arms do not pass their names on. -/
def foldGate : AnfExpr → List String → Option (List String)
  | .letIn name value body, names => do
    foldGate body (← foldGate value (badReducers bad name value names))
  | .fold _ _ func, names => if func ∈ names then none else some names
  | .ifElse _ thenBranch elseBranch, names => do
    let _ ← foldGate thenBranch names
    let _ ← foldGate elseBranch names
    return names
  | .returnWith e, names | .lambda _ _ e, names | .loop e, names | .whileLoop _ e, names
  | .forEach _ _ e, names | .breakWith e, names | .fieldUpdate _ _ e, names
  | .shortCircuitAnd _ e, names | .shortCircuitOr _ e, names => foldGate e names
  | .seq exprs, names | .tupleNew exprs, names | .listNew exprs, names => foldGateAll exprs names
  | .matchOn _ arms, names => do
    foldGateArms arms names
    return names
  | .recordNew fields, names => foldGateFields fields names
  | .variantNew _ payload, names => foldGateOption payload names
  | _, names => some names

def foldGateAll : List AnfExpr → List String → Option (List String)
  | [], names => some names
  | e :: es, names => do foldGateAll es (← foldGate e names)

def foldGateArms : List (String × AnfExpr) → List String → Option Unit
  | [], _ => some ()
  | (_, e) :: arms, names => do
    let _ ← foldGate e names
    foldGateArms arms names

def foldGateFields : List (String × AnfExpr) → List String → Option (List String)
  | [], names => some names
  | (_, e) :: fields, names => do foldGateFields fields (← foldGate e names)

def foldGateOption : Option AnfExpr → List String → Option (List String)
  | none, names => some names
  | some e, names => foldGate e names

end

end FoldGate

def hasFoldWithCapturedReducer : Bool :=
  bindings.any fun binding => (foldGate (fun params captures =>
    !captures.isEmpty && params.length != 2) (bindingBody binding) []).isNone

def hasFoldWithUncapturedWrongArityReducer : Bool :=
  bindings.any fun binding => (foldGate (fun params captures =>
    captures.isEmpty && params.length != 2) (bindingBody binding) []).isNone

/-! ## Functions -/

inductive WasmError where
  | unsupportedWasmConstruct (construct : String)
  | unsupportedPatternSyntax (pattern : String)

/-- Name, source name and export name of every binding; where two bindings
share one of them, the later one is called. -/
def functionNames (functionOffset : Nat) : List (String × Nat) :=
  bindings.zipIdx.flatMap fun (binding, idx) =>
    ((binding.name :: ((stripFront "fn." binding.name.toList).map String.ofList).toList) ++
      [exportName binding.name]).map (·, functionOffset + idx)

def functionIndex (functionOffset : Nat) : Functions := fun name =>
  ((functionNames bindings functionOffset).reverse.find? (·.1 = name)).map (·.2)

/-- What the code of every function of a module is emitted against. -/
structure CodeEnv where
  effectData : EffectDataLayout
  functionOffset : Nat
  foldReducerTypeIdx : Option Nat
  closureReducerTypeIdx : Option Nat
  functions : Functions

variable (env : CodeEnv)

def CodeEnv.newCtx (params : List String) (hoisted closureHoisted : Nat) : WasmCodegenCtx :=
  .new params env.effectData env.foldReducerTypeIdx env.closureReducerTypeIdx env.functionOffset
    hoisted closureHoisted

/-- The code of a function, from its first context on, with the context it
ends in. -/
def emitFunction (type : FuncType) (ctx : WasmCodegenCtx) (m : Emit Unit) :
    Except WasmError (Function × WasmCodegenCtx) :=
  let run := m.run ctx
  match run.state.error with
  | some pattern => .error (.unsupportedPatternSyntax pattern)
  | none => .ok ({ type, locals := run.state.localTypes, body := run.items }, run.state)

def emitBindingBody (binding : AnfBinding) : Emit Unit := do
  let emittedType ← emitAnfExpr env.functions (bindingBody binding)
  if (bindingResult binding).isNone then dropValue emittedType

/-- The functions of the bindings; the counters of table indices run on from
one binding to the next. -/
def emitBindings (env : CodeEnv) : List AnfBinding → Nat → Nat →
    Except WasmError (List Function × Nat × Nat)
  | [], hoisted, closureHoisted => .ok ([], hoisted, closureHoisted)
  | binding :: rest, hoisted, closureHoisted => do
    let (function, ctx) ← emitFunction (bindingSignature binding).funcType
      (env.newCtx (allParams binding) hoisted closureHoisted) (emitBindingBody env binding)
    let (functions, counters) ←
      emitBindings env rest ctx.nextHoistedTableIdx ctx.nextClosureHoistedTableIdx
    return (function :: functions, counters)

def foldReducerType : FuncType := { params := [.i64, .i64], results := [.i64] }

def closureReducerType : FuncType := { params := [.i64, .i64, .i64], results := [.i64] }

/-- A reducer without captures. -/
def emitHoisted (hoisted closureHoisted : Nat) :
    LambdaParts → Except WasmError Function
  | (params, _, body) => do
    let (function, _) ← emitFunction foldReducerType (env.newCtx params hoisted closureHoisted)
      (emitI64Value (emitAnfExpr env.functions body))
    return function

/-- Load the captures from the environment into locals. -/
def emitCaptureLoads : List String → Nat → Emit Unit
  | [], _ => pure ()
  | capture :: rest, idx => do
    let captureLocal ← bindLocal capture .i64
    emit [.localGet 0, .i32WrapI64, .i64Load (16 + idx * 8), .localSet captureLocal]
    emitCaptureLoads rest (idx + 1)

/-- A reducer with captures; its first parameter is the environment. -/
def emitClosureHoisted (hoisted closureHoisted : Nat) :
    LambdaParts → Except WasmError Function
  | (params, captures, body) => do
    let (function, _) ← emitFunction closureReducerType
      (env.newCtx ("__env_ptr" :: params) hoisted closureHoisted) do
        emitCaptureLoads captures 0
        emitI64Value (emitAnfExpr env.functions body)
    return function

def buildCodeSection (bindings : List AnfBinding)
    (hoistedLambdas closureHoistableLambdas : List LambdaParts) :
    Except WasmError (List Function) := do
  let firstHoisted := bindings.length
  let firstClosureHoisted := firstHoisted + hoistedLambdas.length
  let (functions, hoisted, closureHoisted) ←
    emitBindings env bindings firstHoisted firstClosureHoisted
  let reducers ← hoistedLambdas.mapM (emitHoisted env hoisted closureHoisted)
  let closures ← closureHoistableLambdas.mapM (emitClosureHoisted env hoisted closureHoisted)
  return functions ++ reducers ++ closures

/-! ## The module -/

def hostCallType : FuncType := { params := List.replicate 6 .i32, results := [.i64] }
def hostCallWriteType : FuncType := { params := List.replicate 8 .i32, results := [.i32] }
def resourceAcquireType : FuncType := { params := List.replicate 4 .i32, results := [.i64] }
def resourceReleaseType : FuncType := { params := [.i64], results := [] }

variable (layout : EffectDataLayout)

/-- The imports of a module, in index order. -/
def importTypes : List FuncType :=
  (if layout.needsHostCall then [hostCallType] else []) ++
  (if layout.needsHostCallWrite then [hostCallWriteType] else []) ++
  (if layout.needsResourceCall then [resourceAcquireType, resourceReleaseType] else [])

def alignToI64 (offset : Nat) : Nat := (max offset 8 + 7) / 8 * 8

/-- A module: its code, whether it has a memory (of one page, with the heap
pointer as its only global), and what lies in the memory at the start. -/
structure WasmModule where
  code : Module
  hasMemory : Bool
  heapStart : Nat
  data : List (Nat × List UInt8)

def buildData : List (Nat × List UInt8) :=
  layout.strings.map (fun (value, ptr, _) => (ptr, value.toUTF8.data.toList)) ++
  layout.bytesEntries.map fun (data, ptr) => (ptr, data)

/-- The gates, in order. -/
def checkConstructs (hoisted closureHoisted : List LambdaParts) : Except WasmError Unit :=
  match bindings.findSome? fun binding => firstUnsupportedWasmConstruct binding.expr with
  | some construct => .error (.unsupportedWasmConstruct construct)
  | none =>
    if hasFoldWithCapturedReducer bindings then
      .error (.unsupportedWasmConstruct "FoldWithCapturedReducer")
    else if hasFoldWithUncapturedWrongArityReducer bindings then
      .error (.unsupportedWasmConstruct "FoldWithUncapturedWrongArityReducer")
    else if hoisted.any fun (_, _, body) => exprContains2ParamLambda body then
      .error (.unsupportedWasmConstruct "NestedHoistableLambda")
    else if closureHoisted.any fun (_, _, body) => exprContains2ParamLambda body then
      .error (.unsupportedWasmConstruct "NestedClosureHoistableLambda")
    else .ok ()

/-- Whether a module has folds, and so a function table. -/
def needsFold : Bool := bindings.any fun b => anfHasFold b.expr

def hoistedOf : List LambdaParts :=
  if needsFold bindings then collectHoistableLambdas bindings else []

def closureHoistedOf : List LambdaParts :=
  if needsFold bindings then collectClosureHoistableLambdas bindings else []

/-- Both offsets of the source, which are one number: bindings follow the
imports among the types and among the functions. -/
def functionOffsetOf : Nat :=
  layout.needsHostCall.toNat + layout.needsHostCallWrite.toNat + layout.needsResourceCall.toNat * 2

def codeEnvOf : CodeEnv :=
  let layout := EffectDataLayout.forBindings bindings
  let offset := functionOffsetOf layout
  let fold := needsFold bindings
  { effectData := layout
    functionOffset := offset
    foldReducerTypeIdx := if fold then some (offset + bindings.length) else none
    closureReducerTypeIdx := if fold then some (offset + bindings.length + 1) else none
    functions := functionIndex bindings offset }

def typeSection : List FuncType :=
  importTypes (EffectDataLayout.forBindings bindings) ++
    (bindingSignatures bindings).map (·.funcType) ++
    if needsFold bindings then [foldReducerType, closureReducerType] else []

def emitWasm : Except WasmError WasmModule := do
  let layout := EffectDataLayout.forBindings bindings
  let hoisted := hoistedOf bindings
  let closureHoisted := closureHoistedOf bindings
  checkConstructs bindings hoisted closureHoisted
  let functions ← buildCodeSection (codeEnvOf bindings) bindings hoisted closureHoisted
  return {
    code :=
      { types := typeSection bindings
        imports := importTypes layout
        functions
        table :=
          if needsFold bindings then
            (List.range functions.length).map (functionOffsetOf layout + ·)
          else [] }
    hasMemory := layout.needsHostCall || layout.needsMemory
    heapStart := alignToI64 layout.nextOffset
    data := buildData layout }

/-! ## What a module holds -/

/-- The run that emits the function of a binding. -/
def bindingRun (binding : AnfBinding) (hoisted closureHoisted : Nat) :
    Emitted WasmCodegenCtx Instr Unit :=
  (emitBindingBody env binding).run (env.newCtx (allParams binding) hoisted closureHoisted)

/-- The function emitted for a binding, where its emission met no error. -/
def bindingFunction (binding : AnfBinding) (hoisted closureHoisted : Nat) : Function :=
  { type := (bindingSignature binding).funcType
    locals := (bindingRun env binding hoisted closureHoisted).state.localTypes
    body := (bindingRun env binding hoisted closureHoisted).items }

theorem emitFunction_eq_ok {type : FuncType} {ctx ctx' : WasmCodegenCtx} {m : Emit Unit}
    {function : Function} (hemit : emitFunction type ctx m = .ok (function, ctx')) :
    function =
      { type
        locals := (m.run ctx).state.localTypes
        body := (m.run ctx).items } := by
  unfold emitFunction at hemit
  dsimp only at hemit
  split at hemit
  · cases hemit
  · cases hemit
    rfl

variable {bindings : List AnfBinding}

theorem emitBindings_getElem {env : CodeEnv} {hoisted closureHoisted : Nat}
    {functions : List Function} {counters : Nat × Nat}
    (hemit : emitBindings env bindings hoisted closureHoisted = .ok (functions, counters)) :
    List.Forall₂ (fun binding function => ∃ hoisted closureHoisted,
      function = bindingFunction env binding hoisted closureHoisted) bindings functions := by
  induction bindings generalizing hoisted closureHoisted functions counters with
  | nil =>
    cases hemit
    exact .nil
  | cons binding rest ih =>
    obtain ⟨⟨function, ctx⟩, hfirst, hemit⟩ := bind_eq_ok.mp hemit
    obtain ⟨⟨functions', counters'⟩, hrest, hemit⟩ := bind_eq_ok.mp hemit
    cases hemit
    exact .cons ⟨hoisted, closureHoisted, emitFunction_eq_ok hfirst⟩ (ih hrest)

/-- The functions of the bindings come first, in order. -/
theorem emitWasm_getElem {wasm : WasmModule} (hemit : emitWasm bindings = .ok wasm) {i : Nat}
    {binding : AnfBinding} (hbinding : bindings[i]? = some binding) :
    ∃ hoisted closureHoisted, wasm.code.functions[i]? =
      some (bindingFunction (codeEnvOf bindings) binding hoisted closureHoisted) := by
  obtain ⟨_, -, hemit⟩ := bind_eq_ok.mp hemit
  obtain ⟨functions, hcode, hemit⟩ := bind_eq_ok.mp hemit
  cases hemit
  obtain ⟨⟨own, counters⟩, hown, hcode⟩ := bind_eq_ok.mp hcode
  obtain ⟨reducers, -, hcode⟩ := bind_eq_ok.mp hcode
  obtain ⟨closures, -, hcode⟩ := bind_eq_ok.mp hcode
  cases hcode
  have hall := emitBindings_getElem hown
  obtain ⟨hi, rfl⟩ := List.getElem?_eq_some_iff.mp hbinding
  have hlength := hall.length_eq
  obtain ⟨hoisted, closureHoisted, heq⟩ := hall.get hi (hlength ▸ hi)
  refine ⟨hoisted, closureHoisted, ?_⟩
  rw [List.append_assoc, List.getElem?_append_left (hlength ▸ hi),
    List.getElem?_eq_getElem (hlength ▸ hi)]
  exact congrArg some heq

/-! ## Calls by name -/

section Calls

open List

def isExported (binding : AnfBinding) : Bool := (bindingResult binding).isSome

/-- The names in the export section, in order. -/
def exportNames (bindings : List AnfBinding) (exportMemory : Bool) : List String :=
  (bindings.filter isExported).map (exportName ·.name) ++ if exportMemory then ["memory"] else []

/-- The names under which `functionNames` lists a binding. -/
def answersTo (name : String) : List String :=
  (name :: ((stripFront "fn." name.toList).map String.ofList).toList) ++ [exportName name]

/-- The name an export is made of: without `fn.` or `test.` in front. -/
def logicalName (name : String) : List Char :=
  ((stripFront "fn." name.toList).or (stripFront "test." name.toList)).getD name.toList

/-- Two signs that an export does not tell apart. -/
def Alike (c d : Char) : Prop := c = d ∨ ¬ c.isAlphanum ∧ ¬ d.isAlphanum

/-- The names differ only in signs that are neither letters nor digits. -/
def SameExport (name name' : String) : Prop :=
  Forall₂ Alike (logicalName name) (logicalName name')

/-- A name takes the name `n` of a function over: it is the same, with or
without `fn.`, or it differs only in signs for which `n` has underscores. -/
def TakesOver (name n : String) : Prop :=
  name = n ∨ name = "fn." ++ n ∨ name = "fn.fn." ++ n ∨
    (∀ c ∈ n.toList, c.isAlphanum ∨ c = '_') ∧ Forall₂ Alike n.toList (logicalName name)

/-- A function keeps its name to itself. -/
def LeavesName (function later : AnfBinding) : Prop :=
  ∀ n, function.name = "fn." ++ n → ¬ TakesOver later.name n

/-! ### Names that clash -/

/-- The sign `exportName` writes for a sign. -/
theorem eq_exportSign_iff {c d : Char} : d = (if c.isAlphanum ∨ c = '_' then c else '_') ↔
    (d.isAlphanum ∨ d = '_') ∧ Alike d c := by
  unfold Alike
  rcases eq_or_ne c '_' with rfl | hc <;> rcases eq_or_ne d '_' with rfl | hd <;> grind

/-- Exported are letters, digits and underscores, these for all other signs. -/
theorem eq_exportName_iff {name text : String} : text = exportName name ↔
    (∀ c ∈ text.toList, c.isAlphanum ∨ c = '_') ∧ Forall₂ Alike text.toList (logicalName name) := by
  rw [exportName, ← String.toList_inj, String.toList_ofList, ← forall₂_eq_eq_eq,
    forall₂_map_right_iff, ← forall₂_and_left]
  simp only [eq_exportSign_iff]
  rfl

/-- Two names have the same export exactly if they differ only in signs
that are neither letters nor digits. -/
theorem exportName_eq_iff {name name' : String} :
    exportName name = exportName name' ↔ SameExport name name' := by
  have hsign : ∀ {c d : Char}, (if c.isAlphanum ∨ c = '_' then c else '_') =
      (if d.isAlphanum ∨ d = '_' then d else '_') ↔ Alike c d := by
    intro c d
    unfold Alike
    rcases eq_or_ne c '_' with rfl | hc <;> rcases eq_or_ne d '_' with rfl | hd <;> grind
  rw [exportName, exportName, ← String.toList_inj, String.toList_ofList, String.toList_ofList,
    ← forall₂_eq_eq_eq, forall₂_map_left_iff, forall₂_map_right_iff]
  simp only [hsign]
  rfl

theorem exportName_eq_memory_iff {name : String} :
    exportName name = "memory" ↔ name ∈ ["memory", "fn.memory", "test.memory"] := by
  constructor
  · intro heq
    -- all signs of `memory` are letters, so the name has the same ones
    have hlogical : "memory".toList = logicalName name := by
      have hletters := (forall₂_and_left (p := (·.isAlphanum = true)) "memory".toList _).2
        ⟨by simp, (eq_exportName_iff.1 heq.symm).2⟩
      rw [← forall₂_eq_eq_eq]
      refine hletters.imp fun c d halike => ?_
      exact halike.2.resolve_right fun hne => hne.1 halike.1
    have hname : ∀ {part : String}, stripFront part name.toList = some "memory".toList →
        name = part ++ "memory" := by
      intro part hpart
      rw [← String.toList_inj, stripFront_eq_some_iff.1 hpart, String.toList_append]
    unfold logicalName at hlogical
    cases hfn : stripFront "fn." name.toList with
    | some rest =>
      rw [hfn, Option.some_or, Option.getD_some] at hlogical
      simp [hname (hlogical ▸ hfn)]
    | none =>
      cases htest : stripFront "test." name.toList with
      | some rest =>
        rw [hfn, htest, Option.none_or, Option.getD_some] at hlogical
        simp [hname (hlogical ▸ htest)]
      | none =>
        rw [hfn, htest, Option.none_or, Option.getD_none] at hlogical
        simp [String.toList_inj.1 hlogical.symm]
  · simp only [mem_cons, not_mem_nil, or_false]
    rintro (rfl | rfl | rfl) <;> decide

theorem mem_answersTo {own name : String} :
    own ∈ answersTo name ↔ name = own ∨ name = "fn." ++ own ∨ own = exportName name := by
  have hstrip : (stripFront "fn." name.toList).map String.ofList = some own ↔
      name = "fn." ++ own := by
    rw [Option.map_eq_some_iff]
    constructor
    · rintro ⟨rest, hrest, rfl⟩
      rw [← String.toList_inj, stripFront_eq_some_iff.1 hrest]
      simp
    · rintro rfl
      exact ⟨own.toList, stripFront_eq_some_iff.2 (by simp), String.ofList_toList⟩
  rw [answersTo, mem_append, mem_cons, mem_singleton, Option.mem_toList, hstrip, or_assoc,
    eq_comm (a := own)]

/-- What takes a name over answers to it, with `fn.` or without. -/
theorem takesOver_iff {name n : String} :
    TakesOver name n ↔ ∃ own ∈ ["fn." ++ n, n], own ∈ answersTo name := by
  have hdot : "fn." ++ n ≠ exportName name := by
    intro heq
    have hplain := (eq_exportName_iff.1 heq).1 '.' (by simp)
    simp at hplain
  have hfnfn : "fn.fn." ++ n = "fn." ++ ("fn." ++ n) := by
    rw [← String.append_assoc]
    rfl
  simp only [mem_cons, not_mem_nil, or_false, exists_eq_or_imp, exists_eq_left, mem_answersTo]
  rw [TakesOver, ← eq_exportName_iff, hfnfn, or_iff_left hdot]
  tauto

/-! ### Resolution -/

variable {functionOffset : Nat}

theorem functionIndex_concat (binding : AnfBinding) (name : String) :
    functionIndex (bindings ++ [binding]) functionOffset name =
      if name ∈ answersTo binding.name then some (functionOffset + bindings.length)
      else functionIndex bindings functionOffset name := by
  have hnames : functionNames (bindings ++ [binding]) functionOffset =
      functionNames bindings functionOffset ++
        (answersTo binding.name).map (·, functionOffset + bindings.length) := by
    simp [functionNames, zipIdx_append, answersTo]
  rw [functionIndex, hnames, reverse_append, find?_append, ← map_reverse, find?_map]
  cases hfind : (answersTo binding.name).reverse.find?
    ((·.1 = name) ∘ (·, functionOffset + bindings.length)) with
  | none =>
    rw [if_neg fun hmem => absurd (find?_eq_none.1 hfind name (mem_reverse.2 hmem)) (by simp)]
    rfl
  | some found =>
    obtain rfl : found = name := by simpa using find?_some hfind
    rw [if_pos (mem_reverse.1 (mem_of_find?_eq_some hfind))]
    rfl

theorem functionIndex_own_iff :
    (∀ i binding n, bindings[i]? = some binding → binding.name = "fn." ++ n →
      ∀ name ∈ ["fn." ++ n, n],
        functionIndex bindings functionOffset name = some (functionOffset + i)) ↔
      bindings.Pairwise LeavesName := by
  induction bindings using List.reverseRecOn with
  | nil => simp
  | append_singleton bindings last ih =>
    rw [pairwise_append, ← ih]
    simp only [functionIndex_concat]
    constructor
    · intro hown
      have hboth : ∀ i binding n, bindings[i]? = some binding → binding.name = "fn." ++ n →
          ∀ name ∈ ["fn." ++ n, n], name ∉ answersTo last.name ∧
            functionIndex bindings functionOffset name = some (functionOffset + i) := by
        intro i binding n hi hname name hmem
        have hlt := (List.getElem?_eq_some_iff.1 hi).1
        have hindex := hown i binding n (by rw [getElem?_append_left hlt, hi]) hname name hmem
        split at hindex
        · simp at hindex
          omega
        · exact ⟨‹_›, hindex⟩
      refine ⟨fun i binding n hi hname name h => (hboth i binding n hi hname name h).2,
        pairwise_singleton _ _, fun earlier hmem later hlater n hname htakes => ?_⟩
      obtain rfl := mem_singleton.1 hlater
      obtain ⟨i, hi⟩ := mem_iff_getElem?.1 hmem
      obtain ⟨name, h, hanswers⟩ := takesOver_iff.1 htakes
      exact (hboth i earlier n hi hname name h).1 hanswers
    · rintro ⟨hown, -, hleaves⟩ i binding n hi hname name hmem
      rcases Nat.lt_or_ge i bindings.length with hlt | hge
      · rw [getElem?_append_left hlt] at hi
        rw [if_neg fun hanswers => hleaves binding (mem_of_getElem? hi) last (mem_singleton_self _)
          n hname (takesOver_iff.2 ⟨name, hmem, hanswers⟩)]
        exact hown i binding n hi hname name hmem
      · rw [getElem?_append_right hge, getElem?_singleton, Option.ite_none_right_eq_some] at hi
        obtain ⟨hlength, hlast⟩ := hi
        cases hlast
        have hstrip : stripFront "fn." ("fn." ++ n).toList = some n.toList :=
          stripFront_eq_some_iff.2 (by simp)
        have hanswers : name ∈ answersTo last.name := by
          rw [hname, answersTo, hstrip, Option.map_some, String.ofList_toList]
          exact mem_append_left _ hmem
        rw [if_pos hanswers, show i = bindings.length by omega]

/-- Calls resolve to the function they name, and exports are told apart,
exactly if no later binding takes over a name of a function, no two
exports differ only in signs that are neither letters nor digits, and
none is called `memory` beside an exported memory. -/
theorem calls_resolve_iff (bindings : List AnfBinding) (functionOffset : Nat)
    (exportMemory : Bool) :
    (∀ i binding n, bindings[i]? = some binding → binding.name = "fn." ++ n →
      ∀ name ∈ ["fn." ++ n, n],
        functionIndex bindings functionOffset name = some (functionOffset + i)) ∧
      (exportNames bindings exportMemory).Nodup ↔
    bindings.Pairwise LeavesName ∧
      (bindings.filter isExported).Pairwise (¬ SameExport ·.name ·.name) ∧
      (exportMemory = true → ∀ binding ∈ bindings.filter isExported,
        binding.name ∉ ["memory", "fn.memory", "test.memory"]) := by
  simp only [← exportName_eq_iff, ← exportName_eq_memory_iff]
  rw [functionIndex_own_iff, exportNames, nodup_append, forall_mem_map, Nodup, pairwise_map]
  cases exportMemory <;> simp

/-- Both `a_b` and `a.b` are `a_b` to a caller, and that is the second. -/
theorem functionIndex_takenOver :
    let bindings := ["fn.a_b", "fn.a.b"].map fun name => ⟨⟨0⟩, name, .literal (.int 0)⟩
    functionIndex bindings 0 "a_b" = some 1 ∧ exportNames bindings false = ["a_b", "a_b"] := by
  decide

end Calls

/-! ## Regions of the memory -/

section Regions

open List EffectDataLayout

variable {layout layout' : EffectDataLayout}

/-- The bytes of a literal. -/
def literalRegion (entry : Nat × List UInt8) : Set Nat := .Ico entry.1 (entry.1 + entry.2.length)

/-- A call that stores its arguments in memory. -/
inductive StoredCall where
  | effect (capability func : String) (args : List String)
  | acquire (resource : String) (args : List String)

def StoredCall.args : StoredCall → List String
  | .effect _ _ args | .acquire _ args => args

/-- The host writes the result of the call. -/
def StoredCall.returnsBytes : StoredCall → Bool
  | .effect capability func _ => effectCallReturnsBytes capability func
  | .acquire _ _ => false

/-- The literals lie side by side below the next offset. -/
structure Packed (layout : EffectDataLayout) : Prop where
  apart : (buildData layout).Pairwise fun a b => Disjoint (literalRegion a) (literalRegion b)
  below : ∀ entry ∈ buildData layout, entry.1 + entry.2.length ≤ layout.nextOffset

/-- A new literal begins at the next offset. -/
theorem Packed.add (packed : Packed layout) (bytes : List UInt8)
    (hdata : buildData layout' ~ (layout.nextOffset, bytes) :: buildData layout)
    (hnext : layout'.nextOffset = layout.nextOffset + max bytes.length 1) : Packed layout' := by
  have hbelow := packed.below
  refine ⟨(hdata.pairwise_iff fun h => h.symm).2 (.cons (fun entry hmem => ?_) packed.apart), ?_⟩
  · exact Set.disjoint_left.2 fun address hnew hold =>
      absurd (hold.2.trans_le (hbelow entry hmem)) (not_lt.2 hnew.1)
  · grind

theorem Packed.intern (packed : Packed layout) (value : String) : Packed (layout.intern value) := by
  unfold EffectDataLayout.intern
  split
  · exact packed
  · exact packed.add value.toUTF8.data.toList (by simp [buildData]) (by simp)

theorem Packed.internBytes (packed : Packed layout) (data : List UInt8) :
    Packed (layout.internBytes data) := by
  unfold EffectDataLayout.internBytes
  split
  · exact packed
  · exact packed.add data (by simp [buildData, ← append_assoc]) rfl

theorem Packed.with (packed : Packed layout) (args result : Nat)
    (host write resource memory : Bool) :
    Packed ⟨layout.strings, layout.bytesEntries, layout.nextOffset, args, result, host, write,
      resource, memory⟩ :=
  ⟨packed.apart, packed.below⟩

def makesCalls (layout : EffectDataLayout) : Bool :=
  layout.needsHostCall || layout.needsResourceCall

/-- Walking an expression adds what its calls need. -/
structure Collects (calls : List StoredCall) (effects : Bool) (layout layout' : EffectDataLayout) :
    Prop where
  write : layout'.needsHostCallWrite = (layout.needsHostCallWrite || calls.any (·.returnsBytes))
  calls : makesCalls layout ∨ calls ≠ [] → makesCalls layout'
  host : layout.needsHostCall ∨ effects → layout'.needsHostCall

theorem Collects.trans {layout'' : EffectDataLayout} {calls calls' : List StoredCall}
    {effects effects' : Bool} (h : Collects calls effects layout layout')
    (h' : Collects calls' effects' layout' layout'') :
    Collects (calls ++ calls') (effects || effects') layout layout'' where
  write := by rw [h'.write, h.write, any_append, Bool.or_assoc]
  calls := by
    have := h.calls
    have := h'.calls
    grind
  host := by
    have := h.host
    have := h'.host
    grind

theorem Collects.same (hhost : layout'.needsHostCall = layout.needsHostCall)
    (hwrite : layout'.needsHostCallWrite = layout.needsHostCallWrite)
    (hresource : layout'.needsResourceCall = layout.needsResourceCall) :
    Collects [] false layout layout' := by
  constructor <;> simp_all [makesCalls]

end Regions

/-! ## Instances -/

/-- One page of memory with the data segments in place. -/
def WasmModule.initialMemory (wasm : WasmModule) : Memory :=
  { size := if wasm.hasMemory then 65536 else 0
    byte := fun i =>
      (wasm.data.findSome? fun (ptr, bytes) =>
        if ptr ≤ i then bytes[i - ptr]? else none).getD 0 }

/-- The store of a fresh instance. -/
def WasmModule.initialStore {η : Type} (wasm : WasmModule) (world : η) : Store η :=
  { globals := if wasm.hasMemory then [.i32 (.ofNat 32 wasm.heapStart)] else []
    memory := wasm.initialMemory
    world }

theorem WasmModule.initialStore_size_le {η : Type} (wasm : WasmModule) (world : η) :
    (wasm.initialStore world).memory.size ≤ 2 ^ 31 := by
  simp only [initialStore, initialMemory]
  split <;> decide

end Ail.Compiler
