import Ail.Lib.Wasm

/-!
# The typed ABI of the runtime

`codec.rs`: what the runtime makes of the value an export returns and of
the memory it leaves, given the layout of the value. `decodeReturned` is
the part of `invoke_typed` (`host_dispatch/instance.rs`) behind the call.

A pointer is below `2 ^ 31` here, and a read beyond the memory fails
before an offset is large, so no `checked_add` of the source fails.
-/

namespace Ail.Runtime.Codec

open Lib.Wasm

inductive StructuredValue where
  | scalar (value : Int64)
  | float (bits : BitVec 64)
  | record (fields : List (String × StructuredValue))
  | variant (tag : String) (payload : Option StructuredValue)
  | list (elems : List StructuredValue)
  | text (ptr len : Int32)
  | bytes (ptr len : Int32)
  | handle (id : UInt64)
  | unit

inductive ValueLayout where
  | scalar
  | text
  | bytes
  | record (fields : List String)
  | variant (tags : List String)
  | tuple (elems : List ValueLayout)
  | list (inner : ValueLayout)
  | option (inner : ValueLayout)
  | result (ok err : ValueLayout)
  | handle

def readI64At (memory : Memory) (offset : Nat) : Option Int64 :=
  (memory.load offset 8).map Int64.ofNat

def readI32At (memory : Memory) (offset : Nat) : Option Int32 :=
  (memory.load offset 4).map Int32.ofNat

def ptrFromRaw (raw : Int64) : Option Nat :=
  if 0 ≤ raw.toInt ∧ raw.toInt < 2 ^ 31 then some raw.toInt.toNat else none

/-- `v as usize`. -/
def usizeFromI32 (value : Int32) : Nat := (value.toInt % 2 ^ 64).toNat

/-- Both halves of a packed word. -/
def unpack (raw : Int64) : Int32 × Int32 := (raw.toInt32, (raw >>> 32).toInt32)

/-- Every failure decodes to `Unit`. -/
def orUnit (value : Option StructuredValue) : StructuredValue := value.getD .unit

def decodeFields (memory : Memory) (ptr : Nat) :
    List String → Nat → Option (List (String × StructuredValue))
  | [], _ => some []
  | name :: names, i => do
    let value ← readI64At memory (ptr + i * 8)
    let rest ← decodeFields memory ptr names (i + 1)
    return (name, .scalar value) :: rest

def decodeRecord (fields : List String) (raw : Int64) (memory : Memory) : StructuredValue :=
  orUnit do
    let ptr ← ptrFromRaw raw
    return .record (← decodeFields memory ptr fields 0)

/-- Every tag has a scalar payload. -/
def decodeVariant (tags : List String) (ptr : Nat) (memory : Memory) : StructuredValue :=
  orUnit do
    let tag ← tags[usizeFromI32 (← readI32At memory ptr)]?
    let payload ← readI64At memory (ptr + 8)
    return .variant tag (some (.scalar payload))

/-- A variant whose tags have payloads of their own; `None` has none. -/
def decodeTypedVariant (tags : List (String × (Int64 → StructuredValue))) (ptr : Nat)
    (memory : Memory) : StructuredValue :=
  orUnit do
    let (tag, decodePayload) ← tags[usizeFromI32 (← readI32At memory ptr)]?
    if tag = "None" then return .variant tag none
    else
      let payload ← readI64At memory (ptr + 8)
      return .variant tag (some (decodePayload payload))

def decodeElems (memory : Memory) (ptr : Nat) (decodeElem : Int64 → StructuredValue) :
    Nat → Nat → Option (List StructuredValue)
  | 0, _ => some []
  | count + 1, i => do
    let value ← readI64At memory (ptr + (8 + i * 8))
    let rest ← decodeElems memory ptr decodeElem count (i + 1)
    return decodeElem value :: rest

def decodeList (decodeElem : Int64 → StructuredValue) (ptr : Nat) (memory : Memory) :
    StructuredValue :=
  orUnit do
    let count ← readI64At memory ptr
    if count < 0 then none
    else return .list (← decodeElems memory ptr decodeElem count.toInt.toNat 0)

/-- A decoder that wants a pointer. -/
def atPtr (raw : Int64) (decodeAt : Nat → StructuredValue) : StructuredValue :=
  orUnit ((ptrFromRaw raw).map decodeAt)

mutual

def decode : ValueLayout → Int64 → Memory → StructuredValue
  | .scalar, raw, _ => .scalar raw
  | .text, raw, _ => .text (unpack raw).1 (unpack raw).2
  | .bytes, raw, _ => .bytes (unpack raw).1 (unpack raw).2
  | .record fields, raw, memory => decodeRecord fields raw memory
  | .tuple elems, raw, memory =>
    atPtr raw fun ptr => orUnit ((decodeTuple elems ptr memory 0).map .list)
  | .variant tags, raw, memory => atPtr raw fun ptr => decodeVariant tags ptr memory
  | .list inner, raw, memory =>
    atPtr raw fun ptr => decodeList (fun value => decode inner value memory) ptr memory
  | .option inner, raw, memory =>
    atPtr raw fun ptr => decodeTypedVariant
      [("None", .scalar), ("Some", fun value => decode inner value memory)] ptr memory
  | .result ok err, raw, memory =>
    atPtr raw fun ptr => decodeTypedVariant
      [("Ok", fun value => decode ok value memory), ("Err", fun value => decode err value memory)]
      ptr memory
  | .handle, raw, _ => .handle raw.toUInt64

def decodeTuple : List ValueLayout → Nat → Memory → Nat → Option (List StructuredValue)
  | [], _, _, _ => some []
  | layout :: layouts, ptr, memory, i => do
    let value ← readI64At memory (ptr + i * 8)
    let rest ← decodeTuple layouts ptr memory (i + 1)
    return decode layout value memory :: rest

end

/-- The results of an export, decoded over the memory it leaves. -/
def decodeReturned (layout : ValueLayout) (results : List Val) (memory : Memory) :
    StructuredValue :=
  match results with
  | .i64 value :: _ => decode layout (.ofBitVec value) memory
  | .i32 value :: _ => decode layout (.ofInt value.toInt) memory
  | .f64 bits :: _ => .float bits
  | [] => .unit

end Ail.Runtime.Codec
