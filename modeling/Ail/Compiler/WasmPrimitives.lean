import Ail.Compiler.WasmCodegen

/-!
# Code templates of the primitive calls

The instruction sequences that the backend emits for calls of built-in
functions: integers (`wasm_emit/int.rs`), texts (`wasm_emit/text/*.rs`),
bytes, instants and paths (`wasm_emit/expr/calls.rs`). A template looks
its arguments up, draws temporaries and emits a fixed shape of code; a
call with another number of arguments is code that traps.

Sequences the source repeats (the test whether two runs of bytes agree,
the search of one text in another, the packing of a text) are one
definition each.
-/

namespace Ail.Compiler

open Ail.Core Lib Lib.Wasm

def i64Min : Instr := .i64Const Int64.minValue.toInt
def i64Max : Instr := .i64Const Int64.maxValue.toInt

/-! ## Integers -/

/-- The name of a primitive with the instructions behind its operands. -/
def i64Primitives : List (List String × Nat × List Instr) :=
  [(["i64.add", "+", "add"], 2, [.i64Add]), (["i64.sub", "-", "sub"], 2, [.i64Sub]),
   (["i64.mul", "*", "mul"], 2, [.i64Mul]), (["i64.div_s", "/", "div"], 2, [.i64DivS]),
   (["i64.rem_s", "%", "mod"], 2, [.i64RemS]),
   (["i64.and", "and", "int.bit_and", "int_bit_and"], 2, [.i64And]),
   (["i64.or", "or", "int.bit_or", "int_bit_or"], 2, [.i64Or]),
   (["i64.xor", "xor", "int.bit_xor", "int_bit_xor"], 2, [.i64Xor]),
   (["int.bit_not", "int_bit_not"], 1, [.i64Const (-1), .i64Xor]),
   (["i64.neg", "neg", "negate"], 1, [.i64Const (-1), .i64Mul]),
   (["i64.eq", "==", "eq"], 2, [.i64Eq, .i64ExtendI32U]),
   (["i64.ne", "!=", "ne"], 2, [.i64Ne, .i64ExtendI32U]),
   (["i64.lt_s", "<", "lt"], 2, [.i64LtS, .i64ExtendI32U]),
   (["i64.le_s", "<=", "le"], 2, [.i64LeS, .i64ExtendI32U]),
   (["i64.gt_s", ">", "gt"], 2, [.i64GtS, .i64ExtendI32U]),
   (["i64.ge_s", ">=", "ge"], 2, [.i64GeS, .i64ExtendI32U]),
   (["i64.eqz", "not", "!"], 1, [.i64Eqz, .i64ExtendI32U])]

def i64PrimitiveCode (func : String) (argCount : Nat) : Option (List Instr) :=
  (i64Primitives.find? fun (names, arity, _) => func ∈ names ∧ argCount = arity).map (·.2.2)

/-- Two operands and the instructions behind them. -/
def emitI64Binary (code : List Instr) : List String → Emit (Option ValType)
  | [left, right] => do
    emit ((← localAsI64 left) ++ (← localAsI64 right) ++ code)
    return some .i64
  | _ => emitUnreachable

def emitIntWrappingAdd : List String → Emit (Option ValType) := emitI64Binary [.i64Add]
def emitIntWrappingSub : List String → Emit (Option ValType) := emitI64Binary [.i64Sub]
def emitIntWrappingMul : List String → Emit (Option ValType) := emitI64Binary [.i64Mul]

def emitIntShiftLeft : List String → Emit (Option ValType) :=
  emitI64Binary [.i32WrapI64, .i64ExtendI32U, .i64Shl]

def emitIntShiftRight : List String → Emit (Option ValType) :=
  emitI64Binary [.i32WrapI64, .i64ExtendI32U, .i64ShrS]

def emitIntShiftRightUnsigned : List String → Emit (Option ValType) :=
  emitI64Binary [.i32WrapI64, .i64ExtendI32U, .i64ShrU]

/-- The left operand where the comparison holds, else the right one. -/
def emitSelect (compare : Instr) : List String → Emit (Option ValType)
  | [left, right] => do
    let left ← localAsI64 left
    let right ← localAsI64 right
    emit (left ++ right ++ [compare, .ifElse (some .i64) left right])
    return some .i64
  | _ => emitUnreachable

def emitIntMin : List String → Emit (Option ValType) := emitSelect .i64LeS
def emitIntMax : List String → Emit (Option ValType) := emitSelect .i64GeS

def emitIntClamp : List String → Emit (Option ValType)
  | [value, low, high] => do
    let value ← localAsI64 value
    let low ← localAsI64 low
    let high ← localAsI64 high
    emit (value ++ low ++ [.i64LtS,
      .ifElse (some .i64) low (value ++ high ++ [.i64GtS, .ifElse (some .i64) high value])])
    return some .i64
  | _ => emitUnreachable

def emitIntAbsOr : List String → Emit (Option ValType)
  | [value, fallback] => do
    let value ← localAsI64 value
    let fallback ← localAsI64 fallback
    emit (value ++ [i64Min, .i64Eq,
      .ifElse (some .i64) fallback (value ++ [.i64Const 0, .i64LtS,
        .ifElse (some .i64) ([.i64Const 0] ++ value ++ [.i64Sub]) value])])
    return some .i64
  | _ => emitUnreachable

def emitIntNegOr : List String → Emit (Option ValType)
  | [value, fallback] => do
    let value ← localAsI64 value
    let fallback ← localAsI64 fallback
    emit (value ++ [i64Min, .i64Eq,
      .ifElse (some .i64) fallback ([.i64Const 0] ++ value ++ [.i64Sub])])
    return some .i64
  | _ => emitUnreachable

def emitIntSaturatingNeg : List String → Emit (Option ValType)
  | [value] => do
    let value ← localAsI64 value
    emit (value ++ [i64Min, .i64Eq,
      .ifElse (some .i64) [i64Max] ([.i64Const 0] ++ value ++ [.i64Sub])])
    return some .i64
  | _ => emitUnreachable

def emitIntWrappingNeg : List String → Emit (Option ValType)
  | [value] => do
    emit ([.i64Const 0] ++ (← localAsI64 value) ++ [.i64Sub])
    return some .i64
  | _ => emitUnreachable

/-- `value` compared with the sign of `right` and with `left`: the two tests
by which the sums and differences notice an overflow. -/
def signTest (right result left : Nat) (sign order : Instr) : List Instr :=
  [.localGet right, .i64Const 0, sign, .localGet result, .localGet left, order, .i32And]

/-- The operation with a fallback for overflow: `above` and `below` order
the result against the left operand for a positive and a negative right
operand. -/
def emitCheckedOr (op above below : Instr) : List String → Emit (Option ValType)
  | [leftArg, rightArg, fallbackArg] => do
    let left ← intoTemp .i64 (localAsI64 leftArg)
    let right ← intoTemp .i64 (localAsI64 rightArg)
    let fallback ← intoTemp .i64 (localAsI64 fallbackArg)
    let result ← bindTemp .i64
    emit ([.localGet left, .localGet right, op, .localSet result] ++
      signTest right result left .i64GtS above ++ signTest right result left .i64LtS below ++
      [.i32Or, .ifElse (some .i64) [.localGet fallback] [.localGet result]])
    return some .i64
  | _ => emitUnreachable

def emitIntAddOr : List String → Emit (Option ValType) := emitCheckedOr .i64Add .i64LtS .i64GtS
def emitIntSubOr : List String → Emit (Option ValType) := emitCheckedOr .i64Sub .i64GtS .i64LtS

/-- As `emitCheckedOr`, with a bound in place of the fallback. -/
def emitSaturating (op above below : Instr) (upper lower : Instr) :
    List String → Emit (Option ValType)
  | [leftArg, rightArg] => do
    let left ← intoTemp .i64 (localAsI64 leftArg)
    let right ← intoTemp .i64 (localAsI64 rightArg)
    let result ← bindTemp .i64
    emit ([.localGet left, .localGet right, op, .localSet result] ++
      signTest right result left .i64GtS above ++
      [.ifElse (some .i64) [upper]
        (signTest right result left .i64LtS below ++
          [.ifElse (some .i64) [lower] [.localGet result]])])
    return some .i64
  | _ => emitUnreachable

def emitIntSaturatingAdd : List String → Emit (Option ValType) :=
  emitSaturating .i64Add .i64LtS .i64GtS i64Max i64Min

def emitIntSaturatingSub : List String → Emit (Option ValType) :=
  emitSaturating .i64Sub .i64GtS .i64LtS i64Min i64Max

/-- The product, or `overflow` where it does not divide back. -/
def productTest (left right product overflow : Nat) : List Instr :=
  [.localGet right, .i64Const 0, .i64Eq,
   .ifElse (some .i64) [.localGet product]
    [.localGet product, i64Min, .i64Eq, .localGet right, .i64Const (-1), .i64Eq, .i32And,
     .ifElse (some .i64) [.localGet overflow]
      [.localGet product, .localGet right, .i64DivS, .localGet left, .i64Ne,
       .ifElse (some .i64) [.localGet overflow] [.localGet product]]]]

def emitIntMulOr : List String → Emit (Option ValType)
  | [leftArg, rightArg, fallbackArg] => do
    let left ← intoTemp .i64 (localAsI64 leftArg)
    let right ← intoTemp .i64 (localAsI64 rightArg)
    let fallback ← intoTemp .i64 (localAsI64 fallbackArg)
    let product ← bindTemp .i64
    emit ([.localGet left, .localGet right, .i64Mul, .localSet product] ++
      productTest left right product fallback)
    return some .i64
  | _ => emitUnreachable

def emitIntSaturatingMul : List String → Emit (Option ValType)
  | [leftArg, rightArg] => do
    let left ← intoTemp .i64 (localAsI64 leftArg)
    let right ← intoTemp .i64 (localAsI64 rightArg)
    let product ← bindTemp .i64
    emit [.localGet left, .localGet right, .i64Mul, .localSet product]
    let clamp ← bindTemp .i64
    emit ([.localGet left, .i64Const 0, .i64LtS, .localGet right, .i64Const 0, .i64LtS, .i32Xor,
        .ifElse (some .i64) [i64Min] [i64Max], .localSet clamp] ++
      productTest left right product clamp)
    return some .i64
  | _ => emitUnreachable

/-- Division and remainder with a fallback where the instruction traps. -/
def emitDivisionOr (op : Instr) : List String → Emit (Option ValType)
  | [value, divisor, fallback] => do
    let value ← localAsI64 value
    let divisor ← localAsI64 divisor
    let fallback ← localAsI64 fallback
    emit (divisor ++ [.i64Const 0, .i64Eq,
      .ifElse (some .i64) fallback
        (value ++ [i64Min, .i64Eq] ++ divisor ++ [.i64Const (-1), .i64Eq, .i32And,
          .ifElse (some .i64) fallback (value ++ divisor ++ [op])])])
    return some .i64
  | _ => emitUnreachable

def emitIntDivOr : List String → Emit (Option ValType) := emitDivisionOr .i64DivS
def emitIntRemOr : List String → Emit (Option ValType) := emitDivisionOr .i64RemS

/-! ## Texts -/

/-- A text is a word: the length in the upper half, the address in the
lower one. -/
def textLenFromLocal (name : String) : Emit (List Instr) :=
  (· ++ [.i64Const 32, .i64ShrU, .i32WrapI64]) <$> localAsI64 name

def textPtrFromLocal (name : String) : Emit (List Instr) :=
  (· ++ [.i32WrapI64]) <$> localAsI64 name

/-- The word of the text of `len` bytes at `ptr`. -/
def packText (len ptr : Nat) : List Instr :=
  [.localGet len, .i64ExtendI32U, .i64Const 32, .i64Shl, .localGet ptr, .i64ExtendI32U, .i64Or]

/-- Reserve `len` bytes and keep their address in `outPtr`. -/
def reserve (len outPtr : Nat) : List Instr :=
  [.globalGet 0, .localSet outPtr, .globalGet 0, .localGet len, .i32Add, .globalSet 0]

def increment (counter : Nat) : List Instr :=
  [.localGet counter, .i32Const 1, .i32Add, .localSet counter]

/-- The length of a list, where the name is an address. -/
def emitListLenFromLocal (name : String) : Emit Bool := do
  match ← lookup name with
  | some (idx, .i32) =>
    emit [.localGet idx, .i64Load 0]
    return true
  | _ => return false

def emitLen (name : String) : Emit (Option ValType) := do
  if ← emitListLenFromLocal name then return some .i64
  emit ((← textLenFromLocal name) ++ [.i64ExtendI32U])
  return some .i64

def emitTextConcat : List String → Emit (Option ValType)
  | [left, right] => do
    let leftLen ← intoTemp .i32 (textLenFromLocal left)
    let rightLen ← intoTemp .i32 (textLenFromLocal right)
    let leftPtr ← intoTemp .i32 (textPtrFromLocal left)
    let rightPtr ← intoTemp .i32 (textPtrFromLocal right)
    let totalLen ← bindTemp .i32
    emit [.localGet leftLen, .localGet rightLen, .i32Add, .localSet totalLen]
    let outPtr ← bindTemp .i32
    emit ([.globalGet 0, .globalGet 0, .localGet totalLen, .i32Add, .globalSet 0,
        .localSet outPtr,
        .localGet outPtr, .localGet leftPtr, .localGet leftLen, .memoryCopy,
        .localGet outPtr, .localGet leftLen, .i32Add, .localGet rightPtr, .localGet rightLen,
        .memoryCopy] ++ packText totalLen outPtr)
    return some .i64
  | _ => emitUnreachable

/-- Whether `offset` is a character boundary of the text. -/
def utf8BoundaryTest (valuePtr valueLen offset : Nat) : List Instr :=
  [.localGet offset, .localGet valueLen, .i32GtU,
   .ifElse (some .i32) [.i32Const 0]
    [.localGet offset, .i32Eqz,
     .ifElse (some .i32) [.i32Const 1]
      [.localGet offset, .localGet valueLen, .i32Eq,
       .ifElse (some .i32) [.i32Const 1]
        [.localGet valuePtr, .localGet offset, .i32Add, .i32Load8U 0, .i32Const 0xC0, .i32And,
         .i32Const 0x80, .i32Ne]]]]

def emitTextByteAtOr : List String → Emit (Option ValType)
  | [value, indexArg, fallbackArg] => do
    let valueLen ← intoTemp .i32 (textLenFromLocal value)
    let valuePtr ← intoTemp .i32 (textPtrFromLocal value)
    let indexI64 ← intoTemp .i64 (localAsI64 indexArg)
    let fallback ← intoTemp .i64 (localAsI64 fallbackArg)
    let indexI32 ← bindTemp .i32
    let result ← bindTemp .i64
    emit [.localGet fallback, .localSet result,
      .localGet indexI64, .i64Const 0, .i64GeS,
      .ifElse none
        [.localGet indexI64, .localGet valueLen, .i64ExtendI32U, .i64LtS,
         .ifElse none
          [.localGet indexI64, .i32WrapI64, .localSet indexI32,
           .localGet valuePtr, .localGet indexI32, .i32Add, .i32Load8U 0, .i64ExtendI32U,
           .localSet result] []] [],
      .localGet result]
    return some .i64
  | _ => emitUnreachable

def emitTextSlice : List String → Emit (Option ValType)
  | [value, startArg, lengthArg] => do
    let valueLen ← intoTemp .i32 (textLenFromLocal value)
    let valuePtr ← intoTemp .i32 (textPtrFromLocal value)
    let startI64 ← intoTemp .i64 (localAsI64 startArg)
    let requestedI64 ← intoTemp .i64 (localAsI64 lengthArg)
    let startI32 ← bindTemp .i32
    let remainingI32 ← bindTemp .i32
    let remainingI64 ← bindTemp .i64
    let copyLen ← bindTemp .i32
    let endI32 ← bindTemp .i32
    let outPtr ← bindTemp .i32
    let copy := reserve copyLen outPtr ++
      [.localGet outPtr, .localGet valuePtr, .localGet startI32, .i32Add, .localGet copyLen,
       .memoryCopy]
    let clamped : List Instr :=
      [.localGet startI64, .i32WrapI64, .localSet startI32,
       .localGet valueLen, .localGet startI32, .i32Sub, .localSet remainingI32,
       .localGet remainingI32, .i64ExtendI32U, .localSet remainingI64,
       .localGet requestedI64, .localGet remainingI64, .i64LtS,
       .ifElse none [.localGet requestedI64, .i32WrapI64, .localSet copyLen]
        [.localGet remainingI32, .localSet copyLen],
       .localGet startI32, .localGet copyLen, .i32Add, .localSet endI32]
    emit ([.i32Const 0, .localSet copyLen, .globalGet 0, .localSet outPtr,
        .localGet startI64, .i64Const 0, .i64GeS,
        .ifElse none
          [.localGet requestedI64, .i64Const 0, .i64GtS,
           .ifElse none
            [.localGet startI64, .localGet valueLen, .i64ExtendI32U, .i64LtS,
             .ifElse none
              (clamped ++ utf8BoundaryTest valuePtr valueLen startI32 ++
                [.ifElse none
                  (utf8BoundaryTest valuePtr valueLen endI32 ++ [.ifElse none copy []]) []])
              []] []] []] ++
      packText copyLen outPtr)
    return some .i64
  | _ => emitUnreachable

def asciiWhitespaceTest (byte : Nat) : List Instr :=
  [.localGet byte, .i32Const 32, .i32Eq, .localGet byte, .i32Const 9, .i32Eq, .i32Or,
   .localGet byte, .i32Const 10, .i32Eq, .i32Or, .localGet byte, .i32Const 13, .i32Eq, .i32Or]

def emitTextTrim : List String → Emit (Option ValType)
  | [value] => do
    let valueLen ← intoTemp .i32 (textLenFromLocal value)
    let valuePtr ← intoTemp .i32 (textPtrFromLocal value)
    let start ← bindTemp .i32
    let stop ← bindTemp .i32
    let byte ← bindTemp .i32
    let outLen ← bindTemp .i32
    let outPtr ← bindTemp .i32
    emit ([.i32Const 0, .localSet start, .localGet valueLen, .localSet stop,
        .block none [.loop none
          ([.localGet start, .localGet stop, .i32GeU, .brIf 1,
            .localGet valuePtr, .localGet start, .i32Add, .i32Load8U 0, .localSet byte] ++
           asciiWhitespaceTest byte ++ [.i32Eqz, .brIf 1] ++ increment start ++ [.br 0])],
        .block none [.loop none
          ([.localGet stop, .localGet start, .i32GtU, .i32Eqz, .brIf 1,
            .localGet valuePtr, .localGet stop, .i32Const 1, .i32Sub, .i32Add, .i32Load8U 0,
            .localSet byte] ++
           asciiWhitespaceTest byte ++ [.i32Eqz, .brIf 1,
            .localGet stop, .i32Const 1, .i32Sub, .localSet stop, .br 0])],
        .localGet stop, .localGet start, .i32Sub, .localSet outLen] ++
      reserve outLen outPtr ++
      [.localGet outPtr, .localGet valuePtr, .localGet start, .i32Add, .localGet outLen,
       .memoryCopy] ++
      packText outLen outPtr)
    return some .i64
  | _ => emitUnreachable

/-- Clear `flag` at the first of `len` bytes that differ. -/
def mismatchLoop (leftByte : List Instr) (rightPtr offset len flag : Nat) : Instr :=
  .block none [.loop none
    ([.localGet offset, .localGet len, .i32GeU, .brIf 1] ++ leftByte ++
      [.i32Load8U 0, .localGet rightPtr, .localGet offset, .i32Add, .i32Load8U 0, .i32Ne,
       .ifElse none [.i64Const 0, .localSet flag, .br 2] []] ++
      increment offset ++ [.br 0])]

def emitTextEq : List String → Emit (Option ValType)
  | [left, right] => do
    let leftLen ← intoTemp .i32 (textLenFromLocal left)
    let rightLen ← intoTemp .i32 (textLenFromLocal right)
    let leftPtr ← intoTemp .i32 (textPtrFromLocal left)
    let rightPtr ← intoTemp .i32 (textPtrFromLocal right)
    let idx ← bindTemp .i32
    let result ← bindTemp .i64
    emit [.i64Const 0, .localSet result,
      .localGet leftLen, .localGet rightLen, .i32Eq,
      .ifElse none
        [.i64Const 1, .localSet result, .i32Const 0, .localSet idx,
         mismatchLoop [.localGet leftPtr, .localGet idx, .i32Add] rightPtr idx leftLen result] [],
      .localGet result]
    return some .i64
  | _ => emitUnreachable

def emitTextBoundaryMatch (atEnd : Bool) : List String → Emit (Option ValType)
  | [haystack, needle] => do
    let haystackLen ← intoTemp .i32 (textLenFromLocal haystack)
    let needleLen ← intoTemp .i32 (textLenFromLocal needle)
    let haystackPtr ← intoTemp .i32 (textPtrFromLocal haystack)
    let needlePtr ← intoTemp .i32 (textPtrFromLocal needle)
    let start ← bindTemp .i32
    let offset ← bindTemp .i32
    let result ← bindTemp .i64
    let position : List Instr :=
      if atEnd then [.localGet haystackLen, .localGet needleLen, .i32Sub] else [.i32Const 0]
    emit [.i64Const 0, .localSet result,
      .localGet needleLen, .i32Eqz,
      .ifElse none [.i64Const 1, .localSet result]
        [.localGet haystackLen, .localGet needleLen, .i32GeU,
         .ifElse none
          (position ++ [.localSet start, .i64Const 1, .localSet result, .i32Const 0,
            .localSet offset,
            mismatchLoop [.localGet haystackPtr, .localGet start, .i32Add, .localGet offset,
              .i32Add] needlePtr offset needleLen result]) []],
      .localGet result]
    return some .i64
  | _ => emitUnreachable

/-- The slots a search uses. -/
structure SearchSlots where
  textLen : Nat
  needleLen : Nat
  textPtr : Nat
  needlePtr : Nat
  pos : Nat
  offset : Nat
  limitExclusive : Nat
  matched : Nat

/-- Try every position from the left; `onMatch` runs at the first match. -/
def searchLoop (slots : SearchSlots) (onMatch : List Instr) : List Instr :=
  [.localGet slots.textLen, .localGet slots.needleLen, .i32Sub, .i32Const 1, .i32Add,
   .localSet slots.limitExclusive, .i32Const 0, .localSet slots.pos,
   .block none [.loop none
    ([.localGet slots.pos, .localGet slots.limitExclusive, .i32GeU, .brIf 1,
      .i64Const 1, .localSet slots.matched, .i32Const 0, .localSet slots.offset,
      mismatchLoop [.localGet slots.textPtr, .localGet slots.pos, .i32Add, .localGet slots.offset,
        .i32Add] slots.needlePtr slots.offset slots.needleLen slots.matched,
      .localGet slots.matched, .i64Const 0, .i64Ne,
      .ifElse none (onMatch ++ [.br 2]) []] ++
      increment slots.pos ++ [.br 0])]]

/-- A search whose answer is a word: `absent` where the needle does not
occur, `empty` where it is empty, else what `onMatch` leaves in the slot
of the answer. -/
def emitTextSearch (absent empty : Instr) (onMatch : Nat → List Instr) :
    List String → Emit (Option ValType)
  | [haystack, needle] => do
    let haystackLen ← intoTemp .i32 (textLenFromLocal haystack)
    let needleLen ← intoTemp .i32 (textLenFromLocal needle)
    let haystackPtr ← intoTemp .i32 (textPtrFromLocal haystack)
    let needlePtr ← intoTemp .i32 (textPtrFromLocal needle)
    let pos ← bindTemp .i32
    let offset ← bindTemp .i32
    let limitExclusive ← bindTemp .i32
    let matched ← bindTemp .i64
    let result ← bindTemp .i64
    let slots : SearchSlots :=
      { textLen := haystackLen, needleLen, textPtr := haystackPtr, needlePtr, pos, offset,
        limitExclusive, matched }
    emit [absent, .localSet result,
      .localGet needleLen, .i32Eqz,
      .ifElse none [empty, .localSet result]
        [.localGet haystackLen, .localGet needleLen, .i32GeU,
         .ifElse none (searchLoop slots (onMatch pos ++ [.localSet result])) []],
      .localGet result]
    return some .i64
  | _ => emitUnreachable

def emitTextContains : List String → Emit (Option ValType) :=
  emitTextSearch (.i64Const 0) (.i64Const 1) fun _ => [.i64Const 1]

def emitTextIndexOf : List String → Emit (Option ValType) :=
  emitTextSearch (.i64Const (-1)) (.i64Const 0) fun pos => [.localGet pos, .i64ExtendI32U]

def emitTextReplaceFirst : List String → Emit (Option ValType)
  | [value, needle, replacement] => do
    let valueLen ← intoTemp .i32 (textLenFromLocal value)
    let needleLen ← intoTemp .i32 (textLenFromLocal needle)
    let replacementLen ← intoTemp .i32 (textLenFromLocal replacement)
    let valuePtr ← intoTemp .i32 (textPtrFromLocal value)
    let needlePtr ← intoTemp .i32 (textPtrFromLocal needle)
    let replacementPtr ← intoTemp .i32 (textPtrFromLocal replacement)
    let pos ← bindTemp .i32
    let foundPos ← bindTemp .i32
    let offset ← bindTemp .i32
    let limitExclusive ← bindTemp .i32
    let matched ← bindTemp .i64
    let found ← bindTemp .i64
    let outLen ← bindTemp .i32
    let outPtr ← bindTemp .i32
    let suffixStart ← bindTemp .i32
    let suffixLen ← bindTemp .i32
    let slots : SearchSlots :=
      { textLen := valueLen, needleLen, textPtr := valuePtr, needlePtr, pos, offset,
        limitExclusive, matched }
    let replaced : List Instr :=
      [.localGet valueLen, .localGet needleLen, .i32Sub, .localGet replacementLen, .i32Add,
       .localSet outLen,
       .localGet foundPos, .localGet needleLen, .i32Add, .localSet suffixStart,
       .localGet valueLen, .localGet suffixStart, .i32Sub, .localSet suffixLen] ++
      reserve outLen outPtr ++
      [.localGet outPtr, .localGet valuePtr, .localGet foundPos, .memoryCopy,
       .localGet outPtr, .localGet foundPos, .i32Add, .localGet replacementPtr,
       .localGet replacementLen, .memoryCopy,
       .localGet outPtr, .localGet foundPos, .i32Add, .localGet replacementLen, .i32Add,
       .localGet valuePtr, .localGet suffixStart, .i32Add, .localGet suffixLen, .memoryCopy]
    emit ([.i64Const 0, .localSet found, .i32Const 0, .localSet foundPos,
        .localGet valueLen, .localSet outLen, .localGet valuePtr, .localSet outPtr,
        .localGet needleLen, .i32Const 0, .i32GtU,
        .ifElse none
          [.localGet valueLen, .localGet needleLen, .i32GeU,
           .ifElse none
            (searchLoop slots [.i64Const 1, .localSet found, .localGet pos, .localSet foundPos])
            []] [],
        .localGet found, .i64Const 0, .i64Ne,
        .ifElse none replaced []] ++
      packText outLen outPtr)
    return some .i64
  | _ => emitUnreachable

/-- The limit of the accumulator before one more digit overflows it. -/
def i64MaxTenth : Instr := .i64Const 922337203685477580

def emitTextParseIntOr : List String → Emit (Option ValType)
  | [value, fallbackArg] => do
    let valueLen ← intoTemp .i32 (textLenFromLocal value)
    let valuePtr ← intoTemp .i32 (textPtrFromLocal value)
    let fallback ← intoTemp .i64 (localAsI64 fallbackArg)
    let idx ← bindTemp .i32
    let byte ← bindTemp .i32
    let digit ← bindTemp .i64
    let parsed ← bindTemp .i64
    let sign ← bindTemp .i64
    let maxLastDigit ← bindTemp .i64
    let overflow ← bindTemp .i64
    let valid ← bindTemp .i64
    let sawDigit ← bindTemp .i64
    let result ← bindTemp .i64
    let invalid : Instr := .ifElse none [.i64Const 0, .localSet valid, .br 2] []
    let digitLoop : List Instr :=
      [.localGet idx, .localGet valueLen, .i32GeU, .brIf 1,
       .localGet valuePtr, .localGet idx, .i32Add, .i32Load8U 0, .localSet byte,
       .localGet byte, .i32Const 48, .i32LtU, invalid,
       .localGet byte, .i32Const 57, .i32GtU, invalid,
       .localGet byte, .i32Const 48, .i32Sub, .i64ExtendI32U, .localSet digit,
       .i64Const 0, .localSet overflow,
       .localGet parsed, i64MaxTenth, .i64GtS,
       .ifElse none [.i64Const 1, .localSet overflow] [],
       .localGet parsed, i64MaxTenth, .i64Eq,
       .ifElse none
        [.localGet digit, .localGet maxLastDigit, .i64GtS,
         .ifElse none [.i64Const 1, .localSet overflow] []] [],
       .localGet overflow, .i64Const 0, .i64Ne, invalid,
       .localGet parsed, .i64Const 10, .i64Mul, .localGet digit, .i64Add, .localSet parsed,
       .i64Const 1, .localSet sawDigit] ++
      increment idx ++ [.br 0]
    emit [.localGet fallback, .localSet result, .i32Const 0, .localSet idx,
      .i64Const 0, .localSet parsed, .i64Const 1, .localSet sign,
      .i64Const 7, .localSet maxLastDigit, .i64Const 1, .localSet valid,
      .i64Const 0, .localSet sawDigit,
      .localGet valueLen, .i32Const 0, .i32GtU,
      .ifElse none
        [.localGet valuePtr, .i32Load8U 0, .localSet byte,
         .localGet byte, .i32Const 45, .i32Eq,
         .ifElse none [.i64Const (-1), .localSet sign, .i32Const 1, .localSet idx]
          [.localGet byte, .i32Const 43, .i32Eq,
           .ifElse none [.i32Const 1, .localSet idx] []],
         .localGet sign, .i64Const (-1), .i64Eq,
         .ifElse none [.i64Const 8, .localSet maxLastDigit] [],
         .localGet idx, .localGet valueLen, .i32LtU,
         .ifElse none
          [.block none [.loop none digitLoop],
           .localGet valid, .i64Const 0, .i64Ne, .localGet sawDigit, .i64Const 0, .i64Ne, .i32And,
           .ifElse none [.localGet parsed, .localGet sign, .i64Mul, .localSet result] []] []] [],
      .localGet result]
    return some .i64
  | _ => emitUnreachable

/-! ## Instants, paths and bytes -/

/-- Look every name up; at the first unbound one the code traps and the rest
is not looked at. -/
def withSlots : List String → (List Slot → Emit (Option ValType)) → Emit (Option ValType)
  | [], k => k []
  | name :: names, k => do
    match ← lookup name with
    | some slot => withSlots names fun slots => k (slot :: slots)
    | none => emitUnreachable

def getAll (slots : List Slot) : List Instr := slots.map fun slot => .localGet slot.1

/-- The raw arguments and the instructions behind them. -/
def emitRaw (arity : Nat) (code : List Instr) (args : List String) : Emit (Option ValType) :=
  if args.length = arity then
    withSlots args fun slots => do
      emit (getAll slots ++ code)
      return some .i64
  else emitUnreachable

def emitTimeDurationSince : List String → Emit (Option ValType) := emitRaw 2 [.i64Sub]
def emitTimeAddDuration : List String → Emit (Option ValType) := emitRaw 2 [.i64Add]
def emitTimeInstantToMs : List String → Emit (Option ValType) := emitRaw 1 []
def emitBytesLength : List String → Emit (Option ValType) := emitRaw 1 [.i64Const 32, .i64ShrU]

def emitBytesEmpty : List String → Emit (Option ValType) :=
  emitRaw 1 [.i64Const 32, .i64ShrU, .i64Eqz, .i64ExtendI32U]

/-- The type is the argument's own. -/
def emitPathIdentityCall : List String → Emit (Option ValType)
  | [arg] => do
    match ← lookup arg with
    | some (idx, type) =>
      emit [.localGet idx]
      return some type
    | none => emitUnreachable
  | _ => emitUnreachable

/-- Keep the three parts of a packed word in `packed`, `len` and `ptr`. -/
def unpackBytes (source packed len ptr : Nat) : List Instr :=
  [.localGet source, .localSet packed,
   .localGet packed, .i64Const 32, .i64ShrU, .localSet len,
   .localGet packed, .i32WrapI64, .localSet ptr]

/-- A fresh `None` in `resultPtr`. -/
def newNone (resultPtr noneTag : Nat) : List Instr :=
  allocCode 16 ++ [.localSet resultPtr,
    .localGet resultPtr, .i32Const noneTag, .i32Store 0,
    .localGet resultPtr, .i64Const 0, .i64Store 8]

def emitBytesAt : List String → Emit (Option ValType)
  | [bytesArg, indexArg] => withSlots [bytesArg, indexArg] fun
    | [(bytesIdx, _), (indexIdx, _)] => do
      let packed ← bindTemp .i64
      let len ← bindTemp .i64
      let ptr ← bindTemp .i32
      let index ← bindTemp .i64
      let resultPtr ← bindTemp .i32
      emit (unpackBytes bytesIdx packed len ptr ++ [.localGet indexIdx, .localSet index])
      let noneTag ← assignTag "None"
      emit (newNone resultPtr noneTag)
      let someTag ← assignTag "Some"
      emit [.localGet index, .i64Const 0, .i64GeS,
        .ifElse none
          [.localGet index, .localGet len, .i64LtS,
           .ifElse none
            [.localGet resultPtr, .i32Const someTag, .i32Store 0,
             .localGet resultPtr, .localGet ptr, .localGet index, .i32WrapI64, .i32Add,
             .i32Load8U 0, .i64ExtendI32U, .i64Store 8] []] [],
        .localGet resultPtr]
      return some .i32
    | _ => emitUnreachable
  | _ => emitUnreachable

def emitBytesSlice : List String → Emit (Option ValType)
  | [bytesArg, startArg, endArg] => withSlots [bytesArg, startArg, endArg] fun
    | [(bytesIdx, _), (startIdx, _), (endIdx, _)] => do
      let packed ← bindTemp .i64
      let len ← bindTemp .i64
      let ptr ← bindTemp .i32
      let start ← bindTemp .i64
      let stop ← bindTemp .i64
      let copyLen ← bindTemp .i32
      let outPtr ← bindTemp .i32
      let resultPtr ← bindTemp .i32
      emit (unpackBytes bytesIdx packed len ptr ++
        [.localGet startIdx, .localSet start, .localGet endIdx, .localSet stop])
      let noneTag ← assignTag "None"
      emit (newNone resultPtr noneTag)
      let someTag ← assignTag "Some"
      let copied : List Instr :=
        [.localGet stop, .localGet start, .i64Sub, .i32WrapI64, .localSet copyLen] ++
        reserve copyLen outPtr ++
        [.localGet outPtr, .localGet ptr, .localGet start, .i32WrapI64, .i32Add,
         .localGet copyLen, .memoryCopy,
         .localGet resultPtr, .i32Const someTag, .i32Store 0,
         .localGet resultPtr] ++ packText copyLen outPtr ++ [.i64Store 8]
      emit [.localGet start, .i64Const 0, .i64GeS,
        .ifElse none
          [.localGet stop, .localGet start, .i64GeS,
           .ifElse none
            [.localGet stop, .localGet len, .i64LeS, .ifElse none copied []] []] [],
        .localGet resultPtr]
      return some .i32
    | _ => emitUnreachable
  | _ => emitUnreachable

/-! ## The table of primitives -/

/-- The primitives that are recognised by name before the arguments are
looked at. -/
def primitiveTemplates : List (List String × (List String → Emit (Option ValType))) :=
  [(["int.min", "int_min"], emitIntMin), (["int.max", "int_max"], emitIntMax),
   (["int.clamp", "int_clamp"], emitIntClamp), (["int.abs_or", "int_abs_or"], emitIntAbsOr),
   (["int.neg_or", "int_neg_or"], emitIntNegOr),
   (["int.saturating_neg", "int_saturating_neg"], emitIntSaturatingNeg),
   (["int.wrapping_add", "int_wrapping_add"], emitIntWrappingAdd),
   (["int.wrapping_sub", "int_wrapping_sub"], emitIntWrappingSub),
   (["int.wrapping_mul", "int_wrapping_mul"], emitIntWrappingMul),
   (["int.wrapping_neg", "int_wrapping_neg"], emitIntWrappingNeg),
   (["int.shift_left", "int_shift_left"], emitIntShiftLeft),
   (["int.shift_right", "int_shift_right"], emitIntShiftRight),
   (["int.shift_right_unsigned", "int_shift_right_unsigned"], emitIntShiftRightUnsigned),
   (["int.add_or", "int_add_or"], emitIntAddOr), (["int.sub_or", "int_sub_or"], emitIntSubOr),
   (["int.mul_or", "int_mul_or"], emitIntMulOr),
   (["int.saturating_add", "int_saturating_add"], emitIntSaturatingAdd),
   (["int.saturating_sub", "int_saturating_sub"], emitIntSaturatingSub),
   (["int.saturating_mul", "int_saturating_mul"], emitIntSaturatingMul),
   (["int.div_or", "int_div_or"], emitIntDivOr), (["int.rem_or", "int_rem_or"], emitIntRemOr),
   (textConcatNames, emitTextConcat), (textTrimNames, emitTextTrim),
   (textByteAtOrNames, emitTextByteAtOr), (textParseIntOrNames, emitTextParseIntOr),
   (textSliceNames, emitTextSlice), (textReplaceFirstNames, emitTextReplaceFirst),
   (textEqNames, emitTextEq), (textContainsNames, emitTextContains),
   (textIndexOfNames, emitTextIndexOf), (textStartsWithNames, emitTextBoundaryMatch false),
   (textEndsWithNames, emitTextBoundaryMatch true),
   (["time.duration_since", "time_duration_since", "std.time.duration_since"],
    emitTimeDurationSince),
   (["time.add_duration", "time_add_duration", "std.time.add_duration"], emitTimeAddDuration),
   (["time.instant_to_ms", "time_instant_to_ms", "std.time.instant_to_ms"], emitTimeInstantToMs),
   (["bytes.length", "bytes_length", "std.bytes.length"], emitBytesLength),
   (bytesAtNames, emitBytesAt), (bytesSliceNames, emitBytesSlice),
   (bytesConcatNames, emitTextConcat),
   (["bytes.empty", "bytes_empty", "std.bytes.empty"], emitBytesEmpty),
   (["path.from_text", "path_from_text", "std.path.from_text", "path.to_text", "path_to_text",
     "std.path.to_text"], emitPathIdentityCall)]

def primitiveTemplate (func : String) : Option (List String → Emit (Option ValType)) :=
  (primitiveTemplates.find? (func ∈ ·.1)).map (·.2)

end Ail.Compiler
