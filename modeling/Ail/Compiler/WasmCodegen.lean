import Ail.Compiler.WasmAbi
import Ail.Lib.Emitter

/-!
# The code generation context

`WasmCodegenCtx` (`wasm_emit/mod.rs`) is the state one function's code is
emitted from: the local slots of names, the labels around the current
position, the discriminants of variant tags. `Emit` is a computation
that emits instructions from it; its state changes only by the methods
of the context (`WasmCodegenCtx.Step`).
-/

namespace Ail.Compiler

open Ail.Core Lib Lib.Wasm Relation List

inductive LabelKind where
  | other | loopBreak | loopContinue
  deriving DecidableEq

/-- A local: its index and its type. -/
abbrev Slot := Nat × ValType

/-- The newest entry of a name. -/
def findSlot (locals : List (String × Slot)) (name : String) : Option Slot :=
  (locals.find? (·.1 = name)).map (·.2)

/-- `locals`, `labels` and the two tables have the newest entry first. -/
structure WasmCodegenCtx where
  locals : List (String × Slot)
  nextLocal : Nat
  localTypes : List ValType
  effectData : EffectDataLayout
  labels : List LabelKind
  recordLayouts : List (String × List String)
  variantTags : List (String × Nat)
  nextVariantTag : Nat
  foldReducerTypeIdx : Option Nat
  closureReducerTypeIdx : Option Nat
  functionOffset : Nat
  nextHoistedTableIdx : Nat
  nextClosureHoistedTableIdx : Nat
  /-- The first pattern that the backend does not support. -/
  error : Option String

namespace WasmCodegenCtx

/-- Parameters take the first slots, in order. -/
def paramSlots (params : List String) : List (String × Slot) :=
  (params.zipIdx.map fun (name, idx) => (name, idx, ValType.i64)).reverse

/-- Discriminants 0 and 1 are reserved for the well-known tags. -/
def new (params : List String) (effectData : EffectDataLayout)
    (foldReducerTypeIdx closureReducerTypeIdx : Option Nat)
    (functionOffset firstHoistedTableIdx firstClosureHoistedTableIdx : Nat) : WasmCodegenCtx :=
  { locals := paramSlots params
    nextLocal := params.length
    localTypes := []
    effectData
    labels := []
    recordLayouts := []
    variantTags := []
    nextVariantTag := 2
    foldReducerTypeIdx
    closureReducerTypeIdx
    functionOffset
    nextHoistedTableIdx := firstHoistedTableIdx
    nextClosureHoistedTableIdx := firstClosureHoistedTableIdx
    error := none }

variable (ctx : WasmCodegenCtx)

def tagOf (tag : String) : Option Nat :=
  (ctx.variantTags.find? (·.1 = tag)).map (·.2)

def assignTag (tag : String) : Nat × WasmCodegenCtx :=
  match ctx.tagOf tag with
  | some existing => (existing, ctx)
  | none =>
    match wellKnownVariantTag tag with
    | some id =>
      (id, { ctx with
        variantTags := (tag, id) :: ctx.variantTags
        nextVariantTag := max ctx.nextVariantTag (id + 1) })
    | none =>
      (ctx.nextVariantTag, { ctx with
        variantTags := (tag, ctx.nextVariantTag) :: ctx.variantTags
        nextVariantTag := ctx.nextVariantTag + 1 })

def lookup (name : String) : Option Slot := findSlot ctx.locals name

def bindTemp (ctx : WasmCodegenCtx) (type : ValType) : Nat × WasmCodegenCtx :=
  (ctx.nextLocal, { ctx with
    nextLocal := ctx.nextLocal + 1
    localTypes := ctx.localTypes ++ [type] })

/-- As `bindTemp`, with a name. Nothing ever removes a name. -/
def bind (name : String) (type : ValType) : Nat × WasmCodegenCtx :=
  (ctx.nextLocal, { ctx with
    locals := (name, ctx.nextLocal, type) :: ctx.locals
    nextLocal := ctx.nextLocal + 1
    localTypes := ctx.localTypes ++ [type] })

def bindRecordLayout (name : String) (fields : List String) : WasmCodegenCtx :=
  { ctx with recordLayouts := (name, fields) :: ctx.recordLayouts }

/-- A field that the record's layout does not list is read as a number. -/
def fieldOffset (record field : String) : Nat :=
  let position :=
    ((ctx.recordLayouts.find? (·.1 = record)).map (·.2)).bind (·.findIdx? (· = field))
  position.getD ((usizeFromStr field.toList).getD 0) * 8

def exprType (expr : AnfExpr) : Option ValType :=
  inferExprType expr (ctx.locals.map fun (name, slot) => (name, slot.2))

def branchDepth (target : LabelKind) : Option Nat :=
  ctx.labels.findIdx? (· = target)

def setError (pattern : String) : WasmCodegenCtx :=
  { ctx with error := ctx.error.or (some pattern) }

def takeHoisted : Nat × WasmCodegenCtx :=
  (ctx.nextHoistedTableIdx, { ctx with nextHoistedTableIdx := ctx.nextHoistedTableIdx + 1 })

def takeClosureHoisted : Nat × WasmCodegenCtx :=
  (ctx.nextClosureHoistedTableIdx,
    { ctx with nextClosureHoistedTableIdx := ctx.nextClosureHoistedTableIdx + 1 })

/-- What emission can do to the context, labels apart. -/
inductive Step : WasmCodegenCtx → WasmCodegenCtx → Prop
  | assignTag (ctx : WasmCodegenCtx) (tag : String) : Step ctx (ctx.assignTag tag).2
  | bindTemp (ctx : WasmCodegenCtx) (type : ValType) : Step ctx (ctx.bindTemp type).2
  | bind (ctx : WasmCodegenCtx) (name : String) (type : ValType) : Step ctx (ctx.bind name type).2
  | bindRecordLayout (ctx : WasmCodegenCtx) (name : String) (fields : List String) :
    Step ctx (ctx.bindRecordLayout name fields)
  | setError (ctx : WasmCodegenCtx) (pattern : String) : Step ctx (ctx.setError pattern)
  | takeHoisted (ctx : WasmCodegenCtx) : Step ctx ctx.takeHoisted.2
  | takeClosureHoisted (ctx : WasmCodegenCtx) : Step ctx ctx.takeClosureHoisted.2

def withLabels (labels : List LabelKind) : WasmCodegenCtx :=
  { ctx with labels }

/-- Only the table of tags changes. -/
theorem assignTag_eq (tag : String) :
    ∃ variantTags nextVariantTag,
      (ctx.assignTag tag).2 = { ctx with variantTags, nextVariantTag } := by
  unfold WasmCodegenCtx.assignTag
  cases ctx.tagOf tag with
  | some existing => exact ⟨_, _, rfl⟩
  | none => cases wellKnownVariantTag tag <;> exact ⟨_, _, rfl⟩

theorem assignTag_locals (tag : String) : (ctx.assignTag tag).2.locals = ctx.locals := by
  obtain ⟨variantTags, nextVariantTag, heq⟩ := ctx.assignTag_eq tag
  rw [heq]

theorem assignTag_withLabels (labels : List LabelKind) (tag : String) :
    ((ctx.withLabels labels).assignTag tag).2 = (ctx.assignTag tag).2.withLabels labels := by
  unfold WasmCodegenCtx.assignTag
  rw [show (ctx.withLabels labels).tagOf tag = ctx.tagOf tag from rfl]
  cases ctx.tagOf tag with
  | some existing => rfl
  | none => cases wellKnownVariantTag tag <;> rfl

/-- No step looks at the labels. -/
theorem Step.withLabels {ctx ctx' : WasmCodegenCtx} (hstep : Step ctx ctx')
    (labels : List LabelKind) : Step (ctx.withLabels labels) (ctx'.withLabels labels) := by
  cases hstep with
  | assignTag tag => exact assignTag_withLabels ctx labels tag ▸ .assignTag _ tag
  | bindTemp type => exact .bindTemp (ctx.withLabels labels) type
  | bind name type => exact .bind (ctx.withLabels labels) name type
  | bindRecordLayout name fields => exact .bindRecordLayout (ctx.withLabels labels) name fields
  | setError pattern => exact .setError (ctx.withLabels labels) pattern
  | takeHoisted => exact .takeHoisted (ctx.withLabels labels)
  | takeClosureHoisted => exact .takeClosureHoisted (ctx.withLabels labels)

theorem reaches_withLabels {ctx ctx' : WasmCodegenCtx} (hreaches : ReflTransGen Step ctx ctx')
    (labels : List LabelKind) :
    ReflTransGen Step (ctx.withLabels labels) (ctx'.withLabels labels) :=
  hreaches.lift (·.withLabels labels) fun _ _ hstep => hstep.withLabels labels

end WasmCodegenCtx

abbrev Emit := Emitter WasmCodegenCtx.Step Instr

def emit (code : List Instr) : Emit Unit := Emitter.emit code

variable (name : String)

def lookup : Emit (Option Slot) := .read (·.lookup name)

def bindLocal (type : ValType) : Emit Nat :=
  .step (·.bind name type) fun ctx => .bind ctx name type

def bindTemp (type : ValType) : Emit Nat := .step (·.bindTemp type) fun ctx => .bindTemp ctx type

def assignTag (tag : String) : Emit Nat := .step (·.assignTag tag) fun ctx => .assignTag ctx tag

def bindRecordLayout (fields : List String) : Emit Unit :=
  .step (fun ctx => ((), ctx.bindRecordLayout name fields))
    fun ctx => .bindRecordLayout ctx name fields

def setError (pattern : String) : Emit Unit :=
  .step (fun ctx => ((), ctx.setError pattern)) fun ctx => .setError ctx pattern

def takeHoisted : Emit Nat := .step (·.takeHoisted) .takeHoisted

def takeClosureHoisted : Emit Nat := .step (·.takeClosureHoisted) .takeClosureHoisted

/-- Emit inside one more label. -/
def withLabel {α : Type} (kind : LabelKind) (m : Emit α) : Emit α :=
  m.bracket (fun ctx => ctx.withLabels (kind :: ctx.labels))
    (fun ctx ctx' => ctx'.withLabels ctx.labels)
    fun ctx _ hreaches => WasmCodegenCtx.reaches_withLabels hreaches ctx.labels

/-- The code of a computation that is emitted as a block's body. -/
def codeOf {α : Type} (m : Emit α) : Emit (List Instr) := do
  let (_, code) ← m.capture
  return code

/-! ## Helpers of the emitter -/

def emitUnreachable : Emit (Option ValType) := do
  emit [.unreachable]
  return none

/-- Bump the heap pointer; its old value stays on the stack. -/
def allocCode (size : Nat) : List Instr :=
  [.globalGet 0, .globalGet 0, .i32Const size, .i32Add, .globalSet 0]

/-- The value of an expression as an `i64`. -/
def emitI64Value (value : Emit (Option ValType)) : Emit Unit := do
  match ← value with
  | some .i64 => pure ()
  | some .i32 => emit [.i64ExtendI32U]
  | some .f64 => emit [.drop, .i64Const 0]
  | none => emit [.i64Const 0]

/-- A branch whose block has no result leaves no value. -/
def emitBranchExpr (resultType : Option ValType) (branch : Emit (Option ValType)) :
    Emit (Option ValType) := do
  let emittedType ← branch
  if resultType.isNone && emittedType.isSome then
    emit [.drop]
    return none
  else return emittedType

def slotGet : Option Slot → List Instr
  | some (idx, _) => [.localGet idx]
  | none => [.unreachable]

def slotAsI64 : Option Slot → List Instr
  | some (idx, type) => if type = .i32 then [.localGet idx, .i64ExtendI32U] else [.localGet idx]
  | none => [.unreachable]

def slotCondition : Option Slot → List Instr
  | some (idx, type) =>
    if type = .i64 then [.localGet idx, .i64Const 0, .i64Ne] else [.localGet idx]
  | none => [.i32Const 0]

def localGet : Emit (List Instr) := slotGet <$> lookup name

def localAsI64 : Emit (List Instr) := slotAsI64 <$> lookup name

def conditionGet : Emit (List Instr) := slotCondition <$> lookup name

/-- A fresh temporary that holds what the code leaves. -/
def intoTemp (type : ValType) (code : Emit (List Instr)) : Emit Nat := do
  let temp ← bindTemp type
  emit ((← code) ++ [.localSet temp])
  return temp

end Ail.Compiler
