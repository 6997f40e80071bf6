import Ail.Compiler.WasmPrimitives

/-!
# Emitting an expression

`emitAnfExpr` (`wasm_emit/expr.rs`, `control.rs`, `expr/calls.rs`,
`expr/fold.rs`): the instructions of one expression, and the type of the
value they leave, if any. Blocks are emitted as trees; where the source
pushes a label for the code between `block` and `end`, the code is
emitted under `withLabel`.
-/

namespace Ail.Compiler

open Ail.Core Lib Lib.Wasm

/-- The indices of the functions that can be called by name. -/
abbrev Functions := String → Option Nat

/-! ## Literals, calls and effects -/

/-- The word of a text or of bytes in the data section. -/
def packedConst (ptr len : Nat) : Instr :=
  .const (.i64 ((BitVec.ofNat 64 len <<< 32) ||| BitVec.ofNat 64 ptr))

def emitLiteral : LiteralValue → Emit (Option ValType)
  | .int value => do
    emit [.i64Const value.toInt]
    return some .i64
  | .bool value => do
    emit [.i64Const (if value then 1 else 0)]
    return some .i64
  | .float bits => do
    emit [.f64Const bits.toBitVec]
    return some .f64
  | .text value => do
    let (ptr, len) ← Emitter.read (·.effectData.string value)
    emit [packedConst ptr len]
    return some .i64
  | .bytes data => do
    let (ptr, len) ← Emitter.read (·.effectData.bytes data)
    emit [packedConst ptr len]
    return some .i64
  | .unit => do
    emit [.i32Const 0]
    return some .i32

/-- The arguments in order; the code traps at the first unbound one, and
nothing is emitted behind it. -/
def emitArgGets : List String → Emit Bool
  | [] => pure true
  | arg :: rest => do
    match ← lookup arg with
    | some (idx, _) =>
      emit [.localGet idx]
      emitArgGets rest
    | none =>
      emit [.unreachable]
      return false

variable (functions : Functions)

def emitPlainCall (func : String) (args : List String) : Emit (Option ValType) := do
  if ← emitArgGets args then
    match i64PrimitiveCode func args.length with
    | some code =>
      emit code
      return some .i64
    | none =>
      match functions func with
      | some idx =>
        emit [.call idx]
        return some .i64
      | none => emitUnreachable
  else return none

def emitCallExpr (func : String) (args : List String) : Emit (Option ValType) :=
  match decide (func ∈ ["len", "text.len"]), args with
  | true, [arg] => emitLen arg
  | _, args =>
    match primitiveTemplate func with
    | some template => template args
    | none => emitPlainCall functions func args

/-- Store the arguments as words in the buffer of arguments, from slot
`idx` on. -/
def emitStoredArgs (argsOffset : Nat) : List String → Nat → Emit Bool
  | [], _ => pure true
  | arg :: rest, idx => do
    emit [.i32Const (argsOffset + idx * 8)]
    match ← lookup arg with
    | some slot =>
      emit (slotAsI64 (some slot) ++ [.i64Store 0])
      emitStoredArgs argsOffset rest (idx + 1)
    | none =>
      emit [.unreachable]
      return false

/-- The result buffer as a packed word, from the length on the stack. -/
def emitHostCallWritePackedBuffer (resultBufferOffset : Nat) : Emit Unit := do
  let len ← bindTemp .i32
  emit [.localSet len, .localGet len, .i64ExtendI32U, .i64Const 32, .i64Shl,
    .i64Const resultBufferOffset, .i64Or]

/-- Where the module imports `host_call_write`, every effect call goes
through it and gives the number of bytes written. -/
def emitEffectCallExpr (capability func : String) (args : List String) :
    Emit (Option ValType) := do
  let data ← Emitter.read (·.effectData)
  if ← emitStoredArgs data.argsOffset args 0 then
    let (capPtr, capLen) := data.string capability
    let (opPtr, opLen) := data.string func
    emit [.i32Const capPtr, .i32Const capLen, .i32Const opPtr, .i32Const opLen,
      .i32Const data.argsOffset, .i32Const args.length]
    if data.needsHostCallWrite then
      emit [.i32Const data.resultBufferOffset, .i32Const resultBufferMax, .call 1]
      if effectCallReturnsBytes capability func then
        emitHostCallWritePackedBuffer data.resultBufferOffset
      else emit [.i64ExtendI32S]
    else emit [.call 0]
    return some .i64
  else return none

def emitResourceAcquire (resource : String) (args : List String) : Emit (Option ValType) := do
  let data ← Emitter.read (·.effectData)
  if ← emitStoredArgs data.argsOffset args 0 then
    let (resPtr, resLen) := data.string resource
    emit [.i32Const resPtr, .i32Const resLen, .i32Const data.argsOffset, .i32Const args.length,
      .call data.resourceAcquireFuncIndex]
    return some .i64
  else return none

def emitResourceRelease (handle : String) : Emit (Option ValType) := do
  match ← lookup handle with
  | some slot =>
    let data ← Emitter.read (·.effectData)
    emit (slotAsI64 (some slot) ++ [.call data.resourceReleaseFuncIndex])
    return none
  | none => emitUnreachable

/-! ## Cells and collections of names -/

/-- Allocate `size` bytes, keep the address under a name of the emitter's
own, fill the object, leave its address. -/
def emitObject (size : Nat) (name : String) (fill : Nat → Emit Unit) : Emit (Option ValType) := do
  emit (allocCode size)
  let ptr ← bindLocal name .i32
  emit [.localSet ptr]
  fill ptr
  emit [.localGet ptr]
  return some .i32

/-- Store the value of a name in an object. -/
def emitStoreLocal (ptr : Nat) (name : String) (offset : Nat) : Emit Unit := do
  emit [.localGet ptr]
  emit ((← localAsI64 name) ++ [.i64Store offset])

def emitStoreCount (ptr count offset : Nat) : Emit Unit :=
  emit [.localGet ptr, .i64Const count, .i64Store offset]

def emitCellNew (init : String) : Emit (Option ValType) :=
  emitObject 8 "__cell_ptr" fun ptr => emitStoreLocal ptr init 0

def emitCellGet (cell : String) : Emit (Option ValType) := do
  match ← lookup cell with
  | some (idx, _) =>
    emit [.localGet idx, .i64Load 0]
    return some .i64
  | none => emitUnreachable

def emitCellSet (cell value : String) : Emit (Option ValType) := do
  match ← lookup cell with
  | some (idx, _) =>
    emit [.localGet idx]
    emit ((← localAsI64 value) ++ [.i64Store 0, .i32Const 0])
    return some .i32
  | none => emitUnreachable

def emitMapEntries (ptr : Nat) : List (String × String) → Nat → Emit Unit
  | [], _ => pure ()
  | (key, value) :: rest, idx => do
    emitStoreLocal ptr key (8 + idx * 16)
    emitStoreLocal ptr value (16 + idx * 16)
    emitMapEntries ptr rest (idx + 1)

def emitMapNew (entries : List (String × String)) : Emit (Option ValType) :=
  emitObject ((1 + entries.length * 2) * 8) "__map_ptr" fun ptr => do
    emitStoreCount ptr entries.length 0
    emitMapEntries ptr entries 0

def emitSetElements (ptr : Nat) : List String → Nat → Emit Unit
  | [], _ => pure ()
  | element :: rest, idx => do
    emitStoreLocal ptr element (8 + idx * 8)
    emitSetElements ptr rest (idx + 1)

def emitSetNew (elements : List String) : Emit (Option ValType) :=
  emitObject ((1 + elements.length) * 8) "__set_ptr" fun ptr => do
    emitStoreCount ptr elements.length 0
    emitSetElements ptr elements 0

/-- Behind the base address and the index as an `i64`: the address of the
element. -/
def elementAddress : List Instr :=
  [.i64Const 8, .i64Mul, .i64Const 8, .i64Add, .i32WrapI64, .i32Add]

def emitIndexGet (collection index : String) : Emit (Option ValType) := do
  match ← lookup collection with
  | none => emitUnreachable
  | some (collIdx, _) =>
    match ← lookup index with
    | none => emitUnreachable
    | some slot =>
      let index := slotAsI64 (some slot)
      emit (index ++ [.localGet collIdx, .i64Load 0, .i64GeU, .ifElse none [.unreachable] [],
        .localGet collIdx] ++ index ++ elementAddress ++ [.i64Load 0])
      return some .i64

def emitFieldGet (record field : String) : Emit (Option ValType) := do
  match ← lookup record with
  | some (idx, _) =>
    emit [.localGet idx, .i64Load (← Emitter.read (·.fieldOffset record field))]
    return some .i64
  | none => emitUnreachable

/-! ## Lambdas and folds -/

/-- A captured variable as a word; an unbound one is 0. -/
def slotCapture : Option Slot → List Instr
  | some slot => slotAsI64 (some slot)
  | none => [.i64Const 0]

def emitCaptures (ptr : Nat) : List String → Nat → Emit Unit
  | [], _ => pure ()
  | name :: rest, idx => do
    emit [.localGet ptr]
    emit (slotCapture (← lookup name) ++ [.i64Store (16 + idx * 8)])
    emitCaptures ptr rest (idx + 1)

/-- The closure environment: the table index of the code, the number of
captures, the captures. -/
def emitClosureEnv (tableIdx : Nat) (captures : List String) : Emit (Option ValType) :=
  emitObject ((2 + captures.length) * 8) "__closure_env" fun ptr => do
    emitStoreCount ptr tableIdx 0
    emitStoreCount ptr captures.length 8
    emitCaptures ptr captures 0

def emitLambda (params captures : List String) : Emit (Option ValType) := do
  let foldReducer ← Emitter.read (·.foldReducerTypeIdx)
  let closureReducer ← Emitter.read (·.closureReducerTypeIdx)
  if params.length = 2 ∧ captures.isEmpty ∧ foldReducer.isSome then
    emit [.i64Const (← takeHoisted)]
    return some .i64
  else if params.length = 2 ∧ ¬ captures.isEmpty ∧ closureReducer.isSome then
    emitClosureEnv (← takeClosureHoisted) captures
  else emitClosureEnv 0 captures

/-- The slots of a fold. -/
structure FoldSlots where
  list : Nat
  count : Nat
  i : Nat
  acc : Nat
  elem : Nat

/-- The exit test of a fold and the load of its element. -/
def foldHead (slots : FoldSlots) (breakDepth : Nat) : List Instr :=
  [.localGet slots.i, .localGet slots.count, .i64GeU,
   .ifElse none [.localGet slots.acc, .br breakDepth] [],
   .localGet slots.list, .localGet slots.i] ++ elementAddress ++
  [.i64Load 0, .localSet slots.elem]

def foldTail (slots : FoldSlots) (type : Nat) : List Instr :=
  [.callIndirect type, .localSet slots.acc,
   .localGet slots.i, .i64Const 1, .i64Add, .localSet slots.i, .br 0]

/-- The call of the reducer, from the accumulator and the element on the
stack on: a function of the module by its table index, a closure through
its environment, a word as a table index. -/
def emitFoldCall (func : String) (slots : FoldSlots) (foldType : Nat) (closureType : Option Nat) :
    Emit (List Instr) := do
  match functions func with
  | some funcIdx =>
    let offset ← Emitter.read (·.functionOffset)
    return .i32Const (funcIdx - offset : Nat) :: foldTail slots foldType
  | none =>
    match ← lookup func with
    | some (idx, .i32) =>
      match closureType with
      | some type =>
        return [.drop, .drop, .localGet idx, .i64ExtendI32U, .localGet slots.acc,
          .localGet slots.elem, .localGet idx, .i64Load 0, .i32WrapI64] ++ foldTail slots type
      | none => return [.drop, .drop, .unreachable] ++ foldTail slots foldType
    | some (idx, .i64) => return [.localGet idx, .i32WrapI64] ++ foldTail slots foldType
    | some (_, .f64) => return [.drop, .drop, .unreachable] ++ foldTail slots foldType
    | none => return .unreachable :: foldTail slots foldType

def emitFoldExpr (init list func : String) : Emit (Option ValType) := do
  match ← Emitter.read (·.foldReducerTypeIdx) with
  | none => emitUnreachable
  | some foldType =>
    match ← lookup list with
    | none => emitUnreachable
    | some (listLocal, _) =>
      let count ← bindLocal "__fold_count" .i64
      let i ← bindLocal "__fold_i" .i64
      let acc ← bindLocal "__fold_acc" .i64
      let elem ← bindLocal "__fold_elem" .i64
      let slots : FoldSlots := { list := listLocal, count, i, acc, elem }
      emit [.localGet listLocal, .i64Load 0, .localSet count]
      emit ((← localAsI64 init) ++ [.localSet acc, .i64Const 0, .localSet i])
      let closureType ← Emitter.read (·.closureReducerTypeIdx)
      let body ← codeOf <| withLabel .loopBreak <| withLabel .loopContinue do
        let breakDepth ← withLabel .other (Emitter.read (·.branchDepth .loopBreak))
        emit (foldHead slots (breakDepth.getD 2) ++ [.localGet acc, .localGet elem])
        emit (← emitFoldCall functions func slots foldType closureType)
      emit [.block (some .i64) [.loop none body, .unreachable]]
      return some .i64

/-! ## Patterns -/

/-- Constructor applications whose payload is nested or multiple, and record
patterns: shapes the backend knows it does not support. -/
def isUnsupportedPatternShape (pattern : List Char) : Bool :=
  let trimmed := trim pattern
  match trimmed with
  | [] => false
  | first :: _ =>
    if first = '\x7b' then true
    else if first.isUpper ∧ '(' ∈ trimmed then
      let payload := trim ((trimmed.dropWhile (· ≠ '(')).drop 1)
      let payload := trim ((stripCloseParen payload).getD payload)
      '(' ∈ payload ∨ ',' ∈ payload
    else false

/-- The test of a scalar pattern behind the scrutinee. -/
def scalarTest (scrutineeType : ValType) (pattern : String) : Option (List Instr) :=
  match scrutineeType with
  | .i64 =>
    match parseI64Pattern pattern with
    | some value => some [.i64Const value.toInt, .i64Eq]
    | none => (parseBoolPattern pattern).map fun value =>
      [.i64Const (if value then 1 else 0), .i64Eq]
  | .i32 => (parseBoolPattern pattern).map fun value =>
    [.i32Const (if value then 1 else 0), .i32Eq]
  | .f64 => none

/-- A pattern that is neither a wildcard nor recognised. -/
def emitUnmatched (pattern : String) (resultType : Option ValType) : Emit (Option ValType) := do
  if isUnsupportedPatternShape pattern.toList then
    setError (String.ofList (trim pattern.toList))
  emit [.unreachable]
  return resultType

/-- Bind the payload a constructor pattern names, around the arm's body. -/
def emitPayload (scrutinee : String) (binding : Option String) (body : Emit (Option ValType)) :
    Emit (Option ValType) := do
  match binding with
  | none => body
  | some name =>
    if name = "_" then body
    else
      let payload ← bindLocal name .i64
      emit ((← localGet scrutinee) ++ [.i64Load 8, .localSet payload])
      body

/-- A branch to the label of the innermost loop of a kind. -/
def emitBranchTo (target : LabelKind) : Emit (Option ValType) := do
  match ← Emitter.read (·.branchDepth target) with
  | some depth => emit [.br depth]
  | none => emit [.unreachable]
  return none

def dropValue (type : Option ValType) : Emit Unit :=
  if type.isSome then emit [.drop] else pure ()

/-! ## Expressions -/

mutual

def emitAnfExpr (functions : Functions) : AnfExpr → Emit (Option ValType)
  | .literal value => emitLiteral value
  | .var name => do
    match ← lookup name with
    | some (idx, type) =>
      emit [.localGet idx]
      return some type
    | none => emitUnreachable
  | .letIn name value body => do
    let type := (← emitAnfExpr functions value).getD .i32
    let idx ← bindLocal name type
    emit [.localSet idx]
    if let some fields := recordLayoutFields value then bindRecordLayout name fields
    emitAnfExpr functions body
  | .ifElse cond thenBranch elseBranch => do
    emit (← conditionGet cond)
    let thenType ← Emitter.read (·.exprType thenBranch)
    let elseType ← Emitter.read (·.exprType elseBranch)
    let resultType := thenType.filter (some · = elseType)
    let thenCode ← codeOf <| withLabel .other <|
      emitBranchExpr resultType (emitAnfExpr functions thenBranch)
    let elseCode ← codeOf <| withLabel .other <|
      emitBranchExpr resultType (emitAnfExpr functions elseBranch)
    emit [.ifElse resultType thenCode elseCode]
    return resultType
  | .shortCircuitAnd left right => do
    emit (← conditionGet left)
    let rightCode ← codeOf <| withLabel .other <| emitAnfExpr functions right
    emit [.ifElse (some .i64) rightCode [.i64Const 0]]
    return some .i64
  | .shortCircuitOr left right => do
    emit (← conditionGet left)
    let rightCode ← codeOf <| withLabel .other <| emitAnfExpr functions right
    emit [.ifElse (some .i64) [.i64Const 1] rightCode]
    return some .i64
  | .loop body => do
    let resultType ← Emitter.read (·.exprType body)
    let turn ← codeOf <| withLabel .loopBreak <| withLabel .loopContinue do
      let emittedType ← emitAnfExpr functions body
      if resultType.isNone then dropValue emittedType
      emit [.br 1]
    emit [.block resultType
      (.loop none turn :: if resultType.isSome then [.unreachable] else [])]
    return resultType
  | .breakWith value => do
    let _ ← emitAnfExpr functions value
    emitBranchTo .loopBreak
  | .continueLoop => emitBranchTo .loopContinue
  | .whileLoop cond body => do
    let turn ← codeOf <| withLabel .loopBreak <| withLabel .loopContinue do
      emit ((← conditionGet cond) ++ [.i32Eqz, .brIf 1])
      dropValue (← emitAnfExpr functions body)
      emit [.br 0]
    emit [.block none [.loop none turn], .i32Const 0]
    return some .i32
  | .seq exprs => emitSeq functions exprs
  | .returnWith inner => do
    let _ ← emitAnfExpr functions inner
    emit [.ret]
    return none
  | .call func args => emitCallExpr functions func args
  | .effectCall capability func args => emitEffectCallExpr capability func args
  | .fieldGet record field => emitFieldGet record field
  | .fieldUpdate record field value => do
    match ← lookup record with
    | none => emitUnreachable
    | some (idx, _) =>
      emit [.localGet idx]
      emitI64Value (emitAnfExpr functions value)
      emit [.i64Store (← Emitter.read (·.fieldOffset record field))]
      match ← lookup record with
      | some (idx, type) =>
        emit [.localGet idx]
        return some type
      | none => return none
  | .recordNew fields =>
    emitObject (max (fields.length * 8) 1) "__record_ptr" fun ptr =>
      emitFieldValues functions ptr fields 0
  | .tupleNew elems =>
    emitObject (max (elems.length * 8) 1) "__tuple_ptr" fun ptr =>
      emitElems functions ptr elems 0
  | .variantNew tag payload =>
    emitObject 16 "__variant_ptr" fun ptr => do
      emit [.localGet ptr]
      emit [.i32Const (← assignTag tag), .i32Store 0]
      emitVariantPayload functions ptr payload
  | .listNew elems =>
    emitObject (8 + elems.length * 8) "__list_ptr" fun ptr => do
      emitStoreCount ptr elems.length 0
      emitElems functions ptr elems 8
  | .matchOn scrutinee arms => do
    match ← lookup scrutinee with
    | some (_, scrutineeType) =>
      let resultType ← Emitter.read (·.exprType (.matchOn scrutinee arms))
      emitMatchArms functions scrutinee scrutineeType resultType arms
    | none => emitUnreachable
  | .lambda params captures _ => emitLambda params captures
  | .cellNew init => emitCellNew init
  | .cellGet cell => emitCellGet cell
  | .cellSet cell value => emitCellSet cell value
  | .dispatch _ _ _ | .taskSpawn _ _ | .taskAwait _ | .taskCancel _ | .taskGroup _
  | .channelNew _ | .channelSend _ _ | .channelReceive _ | .select _ | .timeout _ _ =>
    emitUnreachable
  | .resourceAcquire resource args => emitResourceAcquire resource args
  | .resourceRelease handle => emitResourceRelease handle
  | .runtimeCheck _ cond _ => do
    emit ((← conditionGet cond) ++ [.ifElse none [.unreachable] []])
    return none
  | .assume _ _ => return none
  | .abort _ => emitUnreachable
  | .mapNew entries => emitMapNew entries
  | .setNew elements => emitSetNew elements
  | .indexGet collection index => emitIndexGet collection index
  | .forEach binding collection body => do
    match ← lookup collection with
    | none => emitUnreachable
    | some (collIdx, _) =>
      let countIdx ← bindLocal "__foreach_count" .i64
      let iIdx ← bindLocal "__foreach_i" .i64
      let elemIdx ← bindLocal binding .i64
      emit [.localGet collIdx, .i64Load 0, .localSet countIdx, .i64Const 0, .localSet iIdx]
      let turn ← codeOf <| withLabel .loopBreak <| withLabel .loopContinue do
        let breakDepth ← Emitter.read (·.branchDepth .loopBreak)
        emit ([.localGet iIdx, .localGet countIdx, .i64GeU, .brIf (breakDepth.getD 1),
          .localGet collIdx, .localGet iIdx] ++ elementAddress ++ [.i64Load 0, .localSet elemIdx])
        dropValue (← emitAnfExpr functions body)
        emit [.localGet iIdx, .i64Const 1, .i64Add, .localSet iIdx, .br 0]
      emit [.block none [.loop none turn], .i32Const 0]
      return some .i32
  | .fold init list func => emitFoldExpr functions init list func
  | .placeholder => emitUnreachable

/-- The elements of a sequence; a value that is not the last one is dropped. -/
def emitSeq (functions : Functions) : List AnfExpr → Emit (Option ValType)
  | [] => do
    emit [.i32Const 0]
    return some .i32
  | [last] => emitAnfExpr functions last
  | e :: rest => do
    dropValue (← emitAnfExpr functions e)
    emitSeq functions rest

def emitFieldValues (functions : Functions) (ptr : Nat) :
    List (String × AnfExpr) → Nat → Emit Unit
  | [], _ => pure ()
  | (_, value) :: rest, idx => do
    emit [.localGet ptr]
    emitI64Value (emitAnfExpr functions value)
    emit [.i64Store (idx * 8)]
    emitFieldValues functions ptr rest (idx + 1)

/-- Store elements from an offset on. -/
def emitElems (functions : Functions) (ptr : Nat) : List AnfExpr → Nat → Emit Unit
  | [], _ => pure ()
  | elem :: rest, offset => do
    emit [.localGet ptr]
    emitI64Value (emitAnfExpr functions elem)
    emit [.i64Store offset]
    emitElems functions ptr rest (offset + 8)

def emitVariantPayload (functions : Functions) (ptr : Nat) : Option AnfExpr → Emit Unit
  | none => pure ()
  | some payload => do
    emit [.localGet ptr]
    emitI64Value (emitAnfExpr functions payload)
    emit [.i64Store 8]

/-- The arms as a chain of tests on the scrutinee, each in the else branch
of the one before. -/
def emitMatchArms (functions : Functions) (scrutinee : String) (scrutineeType : ValType)
    (resultType : Option ValType) : List (String × AnfExpr) → Emit (Option ValType)
  | [] => do
    emit [.unreachable]
    return resultType
  | (pattern, body) :: rest => do
    let branch := emitBranchExpr resultType (emitAnfExpr functions body)
    if trim pattern.toList = ['_'] then branch
    else
      match scrutineeType, parseConstructorPattern pattern with
      | .i32, some (tag, binding) =>
        emit ((← localGet scrutinee) ++ [.i32Load 0])
        emit [.i32Const (← assignTag tag), .i32Eq]
        let thenCode ← codeOf <| withLabel .other <| emitPayload scrutinee binding branch
        let elseCode ← codeOf <| withLabel .other <|
          emitMatchArms functions scrutinee scrutineeType resultType rest
        emit [.ifElse resultType thenCode elseCode]
        return resultType
      | _, _ =>
        match scalarTest scrutineeType pattern with
        | none => emitUnmatched pattern resultType
        | some test =>
          emit ((← localGet scrutinee) ++ test)
          let thenCode ← codeOf <| withLabel .other branch
          let elseCode ← codeOf <| withLabel .other <|
            emitMatchArms functions scrutinee scrutineeType resultType rest
          emit [.ifElse resultType thenCode elseCode]
          return resultType

end

end Ail.Compiler
