import Ail.Compiler.Anf
import Ail.Lib.Wasm

/-!
# The ABI of an emitted module

What the backend decides about a module before it emits code
(`wasm_abi/*.rs`): the type of an expression, the signature of a
binding, the names of exports, where the strings of the module lie in
memory, which imports it needs, and the descriptor a caller decodes the
result of an export with.

Offsets and lengths are the natural numbers behind the source's `i32`.
Name lists that the source searches from the end (`locals`) have the
newest name first here.
-/

namespace Ail.Compiler

open Ail.Core Lib.Wasm

/-! ## Primitive calls the ABI knows -/

def textConcatNames : List String := ["concat", "text.concat"]
def textTrimNames : List String := ["text.trim", "text_trim"]
def textSliceNames : List String := ["text.slice", "text_slice"]
def textReplaceFirstNames : List String := ["text.replace_first", "text_replace_first"]
def textEqNames : List String := ["text.eq", "text_eq"]
def textContainsNames : List String := ["text.contains", "text_contains"]
def textIndexOfNames : List String := ["text.index_of", "text_index_of"]
def textStartsWithNames : List String := ["text.starts_with", "text_starts_with"]
def textEndsWithNames : List String := ["text.ends_with", "text_ends_with"]
def textParseIntOrNames : List String := ["text.parse_int_or", "text_parse_int_or"]
def textByteAtOrNames : List String := ["text.byte_at_or", "text_byte_at_or"]
def bytesAtNames : List String := ["bytes.at", "bytes_at", "std.bytes.at"]
def bytesSliceNames : List String := ["bytes.slice", "bytes_slice", "std.bytes.slice"]
def bytesConcatNames : List String := ["bytes.concat", "bytes_concat", "std.bytes.concat"]

/-- The calls that need linear memory, each with its number of arguments. -/
def memoryCalls : List (List String × Nat) :=
  [(textConcatNames, 2), (textParseIntOrNames, 2), (textByteAtOrNames, 3), (textTrimNames, 1),
   (textSliceNames, 3), (textReplaceFirstNames, 3), (textEqNames, 2), (textContainsNames, 2),
   (textIndexOfNames, 2), (textStartsWithNames ++ textEndsWithNames, 2), (bytesAtNames, 2),
   (bytesSliceNames, 3), (bytesConcatNames, 2)]

def isCallOf (names : List String) (arity : Nat) (func : String) (args : List String) : Bool :=
  func ∈ names ∧ args.length = arity

/-! ## Types of expressions -/

def literalType : LiteralValue → ValType
  | .int _ | .bool _ | .text _ | .bytes _ => .i64
  | .unit => .i32
  | .float _ => .f64

/-- The type all arms have, if they agree. -/
def unanimous : List (Option ValType) → Option ValType
  | [] => none
  | first :: rest => if rest.all (· = first) then first else none

/-- The newest entry of a name. -/
def typeOf (locals : List (String × ValType)) (name : String) : Option ValType :=
  (locals.find? (·.1 = name)).map (·.2)

mutual

def inferExprType : AnfExpr → List (String × ValType) → Option ValType
  | .literal value, _ => some (literalType value)
  | .var name, locals => typeOf locals name
  | .letIn name value body, locals =>
    inferExprType body ((name, (inferExprType value locals).getD .i32) :: locals)
  | .ifElse _ thenBranch elseBranch, locals =>
    let thenType := inferExprType thenBranch locals
    if thenType = inferExprType elseBranch locals then thenType else none
  | .matchOn _ arms, locals => unanimous (inferArmTypes arms locals)
  | .returnWith inner, locals => inferExprType inner locals
  | .shortCircuitAnd _ _, _ | .shortCircuitOr _ _, _ => some .i64
  | .loop body, locals => inferExprType body locals
  | .breakWith value, locals => inferExprType value locals
  | .continueLoop, _ => none
  | .whileLoop _ _, _ => some .i32
  | .recordNew _, _ | .tupleNew _, _ | .variantNew _ _, _ | .listNew _, _ | .lambda _ _ _, _
  | .seq _, _ => some .i32
  | .fieldGet _ _, _ => some .i64
  | .call func args, _ =>
    if isCallOf bytesAtNames 2 func args ∨ isCallOf bytesSliceNames 3 func args then some .i32
    else some .i64
  | .effectCall _ _ _, _ => some .i64
  | .cellNew _, _ => some .i32
  | .cellGet _, _ => some .i64
  | .cellSet _ _, _ => some .i32
  | .mapNew _, _ | .setNew _, _ => some .i32
  | .indexGet _ _, _ => some .i64
  | .forEach _ _ _, _ => some .i32
  | .fold _ _ _, _ => some .i64
  | .resourceAcquire _ _, _ => some .i64
  | .placeholder, _ | .dispatch _ _ _, _ | .taskSpawn _ _, _ | .taskAwait _, _ | .taskCancel _, _
  | .taskGroup _, _ | .channelNew _, _ | .channelSend _ _, _ | .channelReceive _, _
  | .select _, _ | .timeout _ _, _ | .runtimeCheck _ _ _, _ | .resourceRelease _, _
  | .assume _ _, _ | .abort _, _ => none
  | .fieldUpdate _ _ value, locals => (inferExprType value locals).or (some .i32)

/-- The type of each arm; the payload a pattern names is an `i64` in it. -/
def inferArmTypes : List (String × AnfExpr) → List (String × ValType) → List (Option ValType)
  | [], _ => []
  | (pattern, body) :: arms, locals =>
    inferExprType body ((armBinders pattern).map (·, .i64) ++ locals) :: inferArmTypes arms locals

end

/-! ## Signatures -/

variable (binding : AnfBinding)

/-- The parameters of the function emitted for a binding, before those of a
top-level lambda. -/
def bindingParams : List String := collectFreeVars binding.expr [] []

def lambdaBodyParams : AnfExpr → List String
  | .lambda params _ _ => params
  | _ => []

/-- The expression whose code is the function's body. -/
def bindingBody : AnfExpr :=
  match binding.expr with
  | .lambda _ _ body => body
  | expr => expr

/-- All parameters, in the order of the function's signature. -/
def allParams : List String :=
  bindingParams binding ++ lambdaBodyParams binding.expr

/-- Parameters are words, so the newest one comes first in the list the
types are looked up in. -/
def bindingResult : Option ValType :=
  (inferExprType (bindingBody binding) ((allParams binding).reverse.map (·, .i64))).filter
    fun type => type = .i64 ∨ type = .i32

structure WasmSignature where
  paramCount : Nat
  result : Option ValType

def bindingSignature : WasmSignature :=
  { paramCount := (bindingParams binding).length + (lambdaBodyParams binding.expr).length
    result := bindingResult binding }

def bindingSignatures (bindings : List AnfBinding) : List WasmSignature :=
  bindings.map bindingSignature

def WasmSignature.funcType (signature : WasmSignature) : FuncType :=
  { params := List.replicate signature.paramCount .i64, results := signature.result.toList }

/-! ## Export names -/

def exportName (bindingName : String) : String :=
  let name := bindingName.toList
  let logical := ((stripFront "fn." name).or (stripFront "test." name)).getD name
  String.ofList (logical.map fun ch => if ch.isAlphanum ∨ ch = '_' then ch else '_')

example : exportName "fn.math.add_pair" = "math_add_pair" := by decide

/-! ## Records and variants -/

def wellKnownVariantTag (tag : String) : Option Nat :=
  if tag = "None" ∨ tag = "Ok" then some 0
  else if tag = "Some" ∨ tag = "Err" then some 1
  else none

def recordLayoutFields : AnfExpr → Option (List String)
  | .recordNew fields => some (fields.map (·.1))
  | .letIn _ _ body => recordLayoutFields body
  | _ => none

/-! ## Descriptors -/

inductive WasmTypeDescriptor where
  | scalar (type : ValType)
  | text
  | bytes
  | record (fields : List String)
  | variant (tags : List String)
  | tuple (elems : List WasmTypeDescriptor)
  | list (inner : WasmTypeDescriptor)
  | option (inner : WasmTypeDescriptor)
  | result (ok err : WasmTypeDescriptor)
  | handle

/-- The descriptor of a call, where the function is one the ABI knows. -/
def deriveCallType (func : String) (args : List String) : WasmTypeDescriptor :=
  if isCallOf textConcatNames 2 func args ∨ isCallOf textTrimNames 1 func args ∨
      isCallOf textSliceNames 3 func args ∨ isCallOf textReplaceFirstNames 3 func args then .text
  else if isCallOf bytesAtNames 2 func args then .option (.scalar .i64)
  else if isCallOf bytesSliceNames 3 func args then .option .bytes
  else if isCallOf bytesConcatNames 2 func args then .bytes
  else .scalar .i64

mutual

/-- `locals` has the newest binding of a name first. -/
def deriveWasmTypeWithLocals :
    AnfExpr → List (String × WasmTypeDescriptor) → WasmTypeDescriptor
  | .recordNew fields, _ => .record (fields.map (·.1))
  | .variantNew tag _, _ => .variant [tag]
  | .tupleNew elems, locals => .tuple (deriveElems elems locals)
  | .listNew _, _ => .list (.scalar .i64)
  | .letIn name value body, locals =>
    deriveWasmTypeWithLocals body ((name, deriveWasmTypeWithLocals value locals) :: locals)
  | .var name, locals => ((locals.find? (·.1 = name)).map (·.2)).getD (.scalar .i64)
  | .call func args, _ => deriveCallType func args
  | .returnWith inner, locals => deriveWasmTypeWithLocals inner locals
  | .lambda params _ body, locals =>
    deriveWasmTypeWithLocals body (locals.filter (·.1 ∉ params))
  | .literal (.float _), _ => .scalar .f64
  | .literal .unit, _ => .scalar .i32
  | .literal (.text _), _ => .text
  | .literal (.bytes _), _ => .bytes
  | .resourceAcquire _ _, _ => .handle
  | _, _ => .scalar .i64

def deriveElems : List AnfExpr → List (String × WasmTypeDescriptor) → List WasmTypeDescriptor
  | [], _ => []
  | elem :: elems, locals => deriveWasmTypeWithLocals elem locals :: deriveElems elems locals

end

def deriveWasmType (expr : AnfExpr) : WasmTypeDescriptor := deriveWasmTypeWithLocals expr []

def isStructuredDescriptor : WasmTypeDescriptor → Bool
  | .record _ | .variant _ | .tuple _ | .list _ | .option _ | .result _ _ => true
  | _ => false

/-! ## Effects and data -/

/-- Maximum bytes the host may write into the result buffer. -/
def resultBufferMax : Nat := 1024

/-- Bytes reserved for arguments before the result buffer. -/
def maxArgsBytes : Nat := 64

def effectCallReturnsBytes (capability func : String) : Bool :=
  capability = "file.read" ∧ func = "read"

mutual

def hasEffectCall : AnfExpr → Bool
  | .effectCall _ _ _ => true
  | .letIn _ value body => hasEffectCall value || hasEffectCall body
  | .ifElse _ thenBranch elseBranch => hasEffectCall thenBranch || hasEffectCall elseBranch
  | .returnWith inner | .shortCircuitAnd _ inner | .shortCircuitOr _ inner | .loop inner
  | .breakWith inner | .fieldUpdate _ _ inner | .whileLoop _ inner => hasEffectCall inner
  | .seq exprs | .tupleNew exprs | .listNew exprs => hasEffectCallAny exprs
  | .recordNew fields => hasEffectCallFields fields
  | .variantNew _ payload => hasEffectCallOption payload
  | .matchOn _ arms => hasEffectCallFields arms
  | .lambda _ _ body => hasEffectCall body
  | _ => false

def hasEffectCallAny : List AnfExpr → Bool
  | [] => false
  | e :: es => hasEffectCall e || hasEffectCallAny es

def hasEffectCallFields : List (String × AnfExpr) → Bool
  | [] => false
  | (_, e) :: fields => hasEffectCall e || hasEffectCallFields fields

def hasEffectCallOption : Option AnfExpr → Bool
  | none => false
  | some e => hasEffectCall e

end

/-- Where the strings and byte literals of a module lie in memory, and what
the module needs. The buffer of arguments starts at `argsOffset`, the
buffer for results at `resultBufferOffset`. -/
structure EffectDataLayout where
  strings : List (String × Nat × Nat) := []
  bytesEntries : List (List UInt8 × Nat) := []
  nextOffset : Nat := 0
  argsOffset : Nat := 0
  resultBufferOffset : Nat := 0
  needsHostCall : Bool := false
  needsHostCallWrite : Bool := false
  needsResourceCall : Bool := false
  needsMemory : Bool := false

namespace EffectDataLayout

variable (layout : EffectDataLayout)

/-- Index of `ail/resource_acquire` among the imports. -/
def resourceAcquireFuncIndex : Nat :=
  layout.needsHostCall.toNat + layout.needsHostCallWrite.toNat

def resourceReleaseFuncIndex : Nat :=
  layout.resourceAcquireFuncIndex + 1

/-- The pointer and length of an interned string. Every string that code
is emitted for was interned by `collectExpr`, so the default is not
reached from a module. -/
def string (value : String) : Nat × Nat :=
  ((layout.strings.find? (·.1 = value)).map (·.2)).getD (0, 0)

def bytes (data : List UInt8) : Nat × Nat :=
  ((layout.bytesEntries.find? (·.1 = data)).map fun entry => (entry.2, data.length)).getD (0, 0)

def intern (value : String) : EffectDataLayout :=
  if layout.strings.any (·.1 = value) then layout
  else
    { layout with
      strings := layout.strings ++ [(value, layout.nextOffset, value.utf8ByteSize)]
      nextOffset := layout.nextOffset + max value.utf8ByteSize 1 }

def internBytes (data : List UInt8) : EffectDataLayout :=
  if layout.bytesEntries.any (·.1 = data) then layout
  else
    { layout with
      bytesEntries := layout.bytesEntries ++ [(data, layout.nextOffset)]
      nextOffset := layout.nextOffset + max data.length 1 }

/-- Memory is needed from here on. -/
def withMemory : EffectDataLayout := { layout with needsMemory := true }

def collectEffectCall (capability func : String) : EffectDataLayout :=
  let layout := ({ layout with needsHostCall := true }.intern capability).intern func
  if effectCallReturnsBytes capability func then
    { layout with needsHostCallWrite := true, needsMemory := true }
  else layout

mutual

def collectExpr : AnfExpr → EffectDataLayout → EffectDataLayout
  | .literal (.text value), layout => (layout.intern value).withMemory
  | .literal (.bytes data), layout => (layout.internBytes data).withMemory
  | .effectCall capability func _, layout => layout.collectEffectCall capability func
  | .call func args, layout =>
    if memoryCalls.any fun (names, arity) => isCallOf names arity func args then layout.withMemory
    else layout
  | .letIn _ value body, layout => collectExpr body (collectExpr value layout)
  | .fieldGet _ _, layout => layout.withMemory
  | .fieldUpdate _ _ value, layout => collectExpr value layout.withMemory
  | .ifElse _ thenBranch elseBranch, layout =>
    collectExpr elseBranch (collectExpr thenBranch layout)
  | .returnWith inner, layout | .shortCircuitAnd _ inner, layout
  | .shortCircuitOr _ inner, layout | .loop inner, layout | .breakWith inner, layout
  | .whileLoop _ inner, layout => collectExpr inner layout
  | .seq exprs, layout => collectAll exprs layout
  | .tupleNew exprs, layout | .listNew exprs, layout => collectAll exprs layout.withMemory
  | .matchOn _ arms, layout => collectFields arms layout
  | .lambda _ captures body, layout =>
    collectExpr body (if captures.isEmpty then layout else layout.withMemory)
  | .recordNew fields, layout => collectFields fields layout.withMemory
  | .variantNew _ payload, layout => collectOption payload layout.withMemory
  | .cellNew _, layout | .cellGet _, layout | .cellSet _ _, layout | .mapNew _, layout
  | .setNew _, layout | .indexGet _ _, layout => layout.withMemory
  | .forEach _ _ body, layout => collectExpr body layout.withMemory
  | .resourceAcquire resource _, layout =>
    { layout with needsResourceCall := true, needsMemory := true }.intern resource
  | .resourceRelease _, layout => { layout with needsResourceCall := true }
  | _, layout => layout

def collectAll : List AnfExpr → EffectDataLayout → EffectDataLayout
  | [], layout => layout
  | e :: es, layout => collectAll es (collectExpr e layout)

def collectFields : List (String × AnfExpr) → EffectDataLayout → EffectDataLayout
  | [], layout => layout
  | (_, e) :: fields, layout => collectFields fields (collectExpr e layout)

def collectOption : Option AnfExpr → EffectDataLayout → EffectDataLayout
  | none, layout => layout
  | some e, layout => collectExpr e layout

end

/-- An effect call in a binding whose result is structured is answered
through the result buffer. -/
def returnsStructured : Bool :=
  hasEffectCall binding.expr && isStructuredDescriptor (deriveWasmType binding.expr)

def forBindings (bindings : List AnfBinding) : EffectDataLayout :=
  let layout := bindings.foldl (fun layout binding => collectExpr binding.expr layout) {}
  let layout :=
    if layout.needsHostCall || layout.needsResourceCall then
      { layout with argsOffset := max layout.nextOffset 1 }
    else layout
  let layout :=
    if layout.needsHostCall && bindings.any returnsStructured then
      { layout with needsHostCallWrite := true }
    else layout
  if layout.needsHostCallWrite then
    { layout with resultBufferOffset := layout.argsOffset + maxArgsBytes }
  else layout

end EffectDataLayout

end Ail.Compiler
