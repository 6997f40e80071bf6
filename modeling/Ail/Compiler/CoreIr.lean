import Ail.Core.SemanticGraph
import Ail.Core.Text

/-!
# The Semantic Core IR

Expressions of the Core IR (`core_ir/expr.rs`), the constructor-pattern
strings of match arms (`pattern_string.rs`), and the free variables of
an expression.

The eleven binary operators are one constructor with the operator as a
field, since every pass treats them alike; everything else has the
source's constructors. A match arm is a pattern string with its body, a
select clause a channel, a binding and a body.
-/

namespace Ail.Compiler

open Ail.Core

/-- A literal. A float is its IEEE 754 bit pattern, which is also how the
source compares floats. -/
inductive LiteralValue where
  | bool (value : Bool)
  | int (value : Int64)
  | float (bits : UInt64)
  | text (value : String)
  | unit
  | bytes (value : List UInt8)

inductive LoopTermination where
  | proven | bounded | assumed | unverified

inductive BinaryOp where
  | add | sub | mul | div | mod | eq | lt | gt | ne | le | ge

/-- The name an operator is spelled with, in source text and as a call. -/
def BinaryOp.name : BinaryOp → String
  | .add => "add" | .sub => "sub" | .mul => "mul" | .div => "div" | .mod => "mod"
  | .eq => "eq" | .lt => "lt" | .gt => "gt" | .ne => "ne" | .le => "le" | .ge => "ge"

inductive CoreExpr where
  | literal (value : LiteralValue)
  | var (name : String)
  | letIn (name : String) (value body : CoreExpr)
  | ifElse (cond then_ else_ : CoreExpr)
  | matchOn (scrutinee : CoreExpr) (arms : List (String × CoreExpr))
  | call (func : String) (args : List CoreExpr)
  | binary (op : BinaryOp) (left right : CoreExpr)
  | not (operand : CoreExpr)
  | lambda (params : List String) (body : CoreExpr)
  | recordNew (fields : List (String × CoreExpr))
  | fieldGet (record : CoreExpr) (field : String)
  | fieldUpdate (record : CoreExpr) (field : String) (value : CoreExpr)
  | tupleNew (elems : List CoreExpr)
  | variantNew (tag : String) (payload : Option CoreExpr)
  | listNew (elems : List CoreExpr)
  | loop (body : CoreExpr) (termination : Option LoopTermination)
  | breakWith (value : CoreExpr)
  | continueLoop
  | whileLoop (cond body : CoreExpr) (termination : Option LoopTermination)
  | and (left right : CoreExpr)
  | or (left right : CoreExpr)
  | effectCall (capability func : String) (args : List CoreExpr)
  | dispatch (handler method : String) (args : List CoreExpr)
  | taskSpawn (func : String) (args : List CoreExpr)
  | channelSend (channel value : CoreExpr)
  | channelReceive (channel : CoreExpr)
  | runtimeCheck (checkRef : String) (cond : CoreExpr) (msg : String)
  | resourceAcquire (resource : String) (args : List CoreExpr)
  | resourceRelease (handle : CoreExpr)
  | taskAwait (task : CoreExpr)
  | taskCancel (task : CoreExpr)
  | taskGroup (body : CoreExpr)
  | channelNew (capacity : Option UInt64)
  | select (branches : List (CoreExpr × String × CoreExpr))
  | timeout (duration body : CoreExpr)
  | cellNew (init : CoreExpr)
  | cellGet (cell : CoreExpr)
  | cellSet (cell value : CoreExpr)
  | placeholder
  | forEach (binding : String) (collection body : CoreExpr)
  | fold (init list func : CoreExpr)
  | returnWith (value : CoreExpr)
  | mapNew (entries : List (CoreExpr × CoreExpr))
  | setNew (elements : List CoreExpr)
  | indexGet (collection index : CoreExpr)
  | boundaryCall (boundary func : String) (args : List CoreExpr)
  | assume (predicate reason : String)
  | abort (message : String)
  | dynCall (interface method : String) (args : List CoreExpr)
  | capabilityUse (capability : String) (args : List CoreExpr)
  | resourceUse (handle body : CoreExpr)
  | resourceUsing (resource : CoreExpr) (binding : String) (body : CoreExpr)
  | resourceTransfer (handle target : CoreExpr)
  | foreignFunctionCall (func : String) (args : List CoreExpr)
  | patchFieldConstruct (state : String) (value : Option CoreExpr)
  | patchFieldMatch (scrutinee : CoreExpr) (arms : List (String × CoreExpr))

/-! ## Types and nodes -/

inductive ResourceMode where
  | copy | affine | linear | shared

/-- The types a nominal name can stand for. -/
inductive CoreType where
  | unit | never | bool | int | uint | float | text | bytes | record | variant | tuple
  | list (elem : CoreType)
  | map (key value : CoreType)
  | set (elem : CoreType)
  | option (some_ : CoreType)
  | result (ok err : CoreType)
  | function (params : List CoreType) (ret : CoreType) (effects : List String)
  | handle (resource : CoreType) (mode : ResourceMode)
  | refinement (base : CoreType) (predicate : String)
  | generic (bound : Option CoreType)

/-- The type of a nominal name; the arguments of a parametrised type are
not known yet. An unknown name is generic. -/
def nominalToCoreType : String → CoreType
  | "Unit" => .unit
  | "Never" => .never
  | "Bool" => .bool
  | "Int" => .int
  | "UInt" => .uint
  | "Float" => .float
  | "Text" => .text
  | "Bytes" => .bytes
  | "Record" => .record
  | "Variant" => .variant
  | "Tuple" => .tuple
  | "List" => .list (.generic none)
  | "Map" => .map (.generic none) (.generic none)
  | "Set" => .set (.generic none)
  | "Option" => .option (.generic none)
  | "Result" => .result (.generic none) (.generic none)
  | "Function" => .function [] (.generic none) []
  | "Handle" => .handle (.generic none) .copy
  | "Refinement" => .refinement (.generic none) ""
  | "Generic" => .generic none
  | _ => .generic none

inductive CoreNodeKind where
  | module | function | type | effect | capability | contract | invariant | test | boundary
  | package | interface | impl | effectAlias | import | export | versionConstraint
  | capabilityExport | contractExport

def mapNodeKind : NodeKind → CoreNodeKind
  | .module => .module | .function => .function | .type => .type | .effect => .effect
  | .capability => .capability | .contract => .contract | .invariant => .invariant
  | .test => .test | .boundary => .boundary | .package => .package | .interface => .interface
  | .impl => .impl | .effectAlias => .effectAlias | .import => .import | .export => .export
  | .versionConstraint => .versionConstraint | .capabilityExport => .capabilityExport
  | .contractExport => .contractExport

/-- A lowered graph node. -/
structure CoreNode where
  sourceRef : NodeRef
  kind : CoreNodeKind
  name : String
  ty : Option CoreType
  expr : Option CoreExpr

/-! ## Constructor patterns -/

/-- `strip_suffix(')')`. -/
def stripCloseParen (cs : List Char) : Option (List Char) :=
  match cs.reverse with
  | ')' :: rest => some rest.reverse
  | _ => none

variable (pattern : String)

/-- The tag and the payload binding of a constructor pattern: `Ok(x)` is
`("Ok", some "x")`, `None` is `("None", none)`; nested, multi-binding and
malformed patterns are none of these. -/
def parseConstructorPattern : Option (String × Option String) :=
  let trimmed := trim pattern.toList
  match trimmed with
  | [] => none
  | first :: _ =>
    if !first.isUpper then none
    else if '(' ∈ trimmed then
      let tag := trim (trimmed.takeWhile (· ≠ '('))
      let after := trim ((trimmed.dropWhile (· ≠ '(')).drop 1)
      match stripCloseParen after with
      | none => none
      | some inner =>
        let binding := trim inner
        if '(' ∈ binding ∨ ',' ∈ binding then none
        else some (String.ofList tag, some (String.ofList binding))
    else some (String.ofList trimmed, none)

/-- The variable an arm binds: the payload of its constructor pattern,
unless that is the wildcard. -/
def armPayloadBinding : Option String :=
  match parseConstructorPattern pattern with
  | some (_, some name) => if name = "_" then none else some name
  | _ => none

/-- The names an arm binds, none or one. -/
def armBinders : List String := (armPayloadBinding pattern).toList

example : armPayloadBinding "Ok(x)" = some "x" := by decide
example : armPayloadBinding "Pair(a, b)" = none := by decide

/-! ## Scalar patterns -/

def parseI64Pattern : Option Int64 := i64FromStr (trim pattern.toList)

def parseBoolPattern : Option Bool :=
  match String.ofList (trim pattern.toList) with
  | "true" | "True" => some true
  | "false" | "False" => some false
  | _ => none

/-! ## Free variables -/

/-- The names of a list that a scope does not bind. -/
def without (names binders : List String) : List String := names.filter (· ∉ binders)

@[simp] theorem mem_without {name : String} {names binders : List String} :
    name ∈ without names binders ↔ name ∈ names ∧ name ∉ binders := by
  simp [without]

mutual

/-- The free variables of an expression. Function, capability and field
names are not variables; lets, lambda parameters, arm payloads, loop and
clause bindings bind in their bodies. -/
def CoreExpr.freeVars : CoreExpr → List String
  | .var name => [name]
  | .letIn name value body => value.freeVars ++ without body.freeVars [name]
  | .ifElse cond then_ else_ => cond.freeVars ++ then_.freeVars ++ else_.freeVars
  | .matchOn scrutinee arms | .patchFieldMatch scrutinee arms =>
    scrutinee.freeVars ++ freeVarsArms arms
  | .call _ args | .tupleNew args | .listNew args | .effectCall _ _ args | .dispatch _ _ args
  | .taskSpawn _ args | .resourceAcquire _ args | .setNew args | .boundaryCall _ _ args
  | .dynCall _ _ args | .capabilityUse _ args | .foreignFunctionCall _ args => freeVarsAll args
  | .binary _ left right | .and left right | .or left right => left.freeVars ++ right.freeVars
  | .not e | .fieldGet e _ | .loop e _ | .breakWith e | .channelReceive e | .runtimeCheck _ e _
  | .resourceRelease e | .taskAwait e | .taskCancel e | .taskGroup e | .cellNew e | .cellGet e
  | .returnWith e => e.freeVars
  | .lambda params body => without body.freeVars params
  | .recordNew fields => freeVarsFields fields
  | .fieldUpdate e _ e' | .whileLoop e e' _ | .channelSend e e' | .timeout e e' | .cellSet e e'
  | .indexGet e e' | .resourceUse e e' | .resourceTransfer e e' => e.freeVars ++ e'.freeVars
  | .variantNew _ payload | .patchFieldConstruct _ payload => freeVarsOption payload
  | .select branches => freeVarsBranches branches
  | .forEach binding collection body | .resourceUsing collection binding body =>
    collection.freeVars ++ without body.freeVars [binding]
  | .fold init list func => init.freeVars ++ list.freeVars ++ func.freeVars
  | .mapNew entries => freeVarsEntries entries
  | .literal _ | .continueLoop | .channelNew _ | .placeholder | .assume _ _ | .abort _ => []

def freeVarsAll : List CoreExpr → List String
  | [] => []
  | e :: es => e.freeVars ++ freeVarsAll es

def freeVarsArms : List (String × CoreExpr) → List String
  | [] => []
  | (pattern, body) :: arms => without body.freeVars (armBinders pattern) ++ freeVarsArms arms

def freeVarsFields : List (String × CoreExpr) → List String
  | [] => []
  | (_, e) :: fields => e.freeVars ++ freeVarsFields fields

def freeVarsEntries : List (CoreExpr × CoreExpr) → List String
  | [] => []
  | (key, value) :: entries => key.freeVars ++ value.freeVars ++ freeVarsEntries entries

def freeVarsBranches : List (CoreExpr × String × CoreExpr) → List String
  | [] => []
  | (channel, binding, body) :: branches =>
    channel.freeVars ++ without body.freeVars [binding] ++ freeVarsBranches branches

def freeVarsOption : Option CoreExpr → List String
  | none => []
  | some e => e.freeVars

end

example : (CoreExpr.matchOn (.var "r") [("Ok(x)", .var "x"), ("_", .var "y")]).freeVars =
    ["r", "y"] := by
  decide

end Ail.Compiler
