import Ail.Compiler.Anf
import Ail.Lib.Fresh

/-!
# Lowering to A-normal form

The source has two lowerings of an expression. The LOCAL one
(`local.rs`) lets-binds the temporaries of a form around the form; the
GLOBAL one (`global/*.rs`) pushes them to a vector of bindings that is
passed along. Form by form they atomize and lower the same operands in
the same order, so both are one function here, with the path as a
parameter and three ways to finish a form:

* `form`: on the local path the temporaries are wrapped around the form,
  on the global path they are passed on;
* `operator`: always the local path, whichever path asked (the binary
  operators, `not` and the desugared `while`);
* `fallThrough`: the `_` arm of the local lowering. The form is lowered
  on the GLOBAL path with a vector that is dropped at once, so on the
  local path its temporaries are lost.

`fresh` is the counter of synthetic names, a `u32` in the source.
-/

namespace Ail.Compiler

open Ail.Core Lib

/-- A lowering draws temporaries and emits the bindings it passes on. -/
abbrev Lowering (α : Type) := Fresh (String × AnfExpr) α

/-- The synthetic name of a number. -/
def temporary (n : Nat) : String := "anf_" ++ toString n

/-- Nest bindings, first outermost, around a body. -/
def wrapLocalBindings (bindings : List (String × AnfExpr)) (body : AnfExpr) : AnfExpr :=
  bindings.reverse.foldl (fun body (name, value) => .letIn name value body) body

inductive Path where
  | localPath | globalPath

def form (path : Path) (lowering : Lowering AnfExpr) : Lowering AnfExpr :=
  match path with
  | .localPath => lowering.collect wrapLocalBindings
  | .globalPath => lowering

def operator (lowering : Lowering AnfExpr) : Lowering AnfExpr := lowering.collect wrapLocalBindings

def fallThrough (path : Path) (lowering : Lowering AnfExpr) : Lowering AnfExpr :=
  match path with
  | .localPath => lowering.collect fun _ expr => expr
  | .globalPath => lowering

/-- The atomic name of an operand (`atomize`, `atomize_local`): a variable
is its own name, anything else is lowered and bound to a temporary. -/
def atomize (operand : CoreExpr) (lowered : Lowering AnfExpr) : Lowering String :=
  match operand with
  | .var name => pure name
  | _ => do
    let value ← lowered
    let n ← Fresh.next
    Fresh.emit (temporary n, value)
    pure (temporary n)

/-- The desugared `while` (`Loop` + `If` + `Break`/`Continue`): the
condition is bound inside the loop, so it is evaluated on every turn. -/
def desugarWhile (condTmp : String) (cond : AnfExpr) (bodyTmp : String) (body : AnfExpr) :
    AnfExpr :=
  .seq [
    .loop (.letIn condTmp cond
      (.ifElse condTmp (.letIn bodyTmp body .continueLoop) (.breakWith (.literal .unit)))),
    .literal .unit]

mutual

def lowerCoreExpr (path : Path) : CoreExpr → Lowering AnfExpr
  | .literal value => pure (.literal value)
  | .var name => pure (.var name)
  | .letIn name value body => form path do
    let value ← lowerCoreExpr path value
    let body ← lowerCoreExpr path body
    pure (.letIn name value body)
  | .ifElse cond then_ else_ => form path do
    let condName ← atomize cond (lowerCoreExpr path cond)
    let thenBranch ← lowerCoreExpr path then_
    let elseBranch ← lowerCoreExpr path else_
    pure (.ifElse condName thenBranch elseBranch)
  | .matchOn scrutinee arms => form path do
    let scrutineeName ← atomize scrutinee (lowerCoreExpr path scrutinee)
    let arms ← lowerArms path arms
    pure (.matchOn scrutineeName arms)
  | .call func args => form path do
    let args ← atomizeAll path args
    pure (.call func args)
  | .effectCall capability func args => form path do
    let args ← atomizeAll path args
    pure (.effectCall capability func args)
  | .binary op left right => operator do
    let leftName ← atomize left (lowerCoreExpr .localPath left)
    let rightName ← atomize right (lowerCoreExpr .localPath right)
    pure (.call op.name [leftName, rightName])
  | .not operand => operator do
    let operandName ← atomize operand (lowerCoreExpr .localPath operand)
    pure (.call "not" [operandName])
  | .and left right => form path do
    let leftName ← atomize left (lowerCoreExpr path left)
    let right ← lowerCoreExpr path right
    pure (.shortCircuitAnd leftName right)
  | .or left right => form path do
    let leftName ← atomize left (lowerCoreExpr path left)
    let right ← lowerCoreExpr path right
    pure (.shortCircuitOr leftName right)
  | .fieldGet record field => form path do
    let recordName ← atomize record (lowerCoreExpr path record)
    pure (.fieldGet recordName field)
  | .fieldUpdate record field value => form path do
    let recordName ← atomize record (lowerCoreExpr path record)
    let valueName ← atomize value (lowerCoreExpr path value)
    pure (.fieldUpdate recordName field (.var valueName))
  | .recordNew fields => form path do
    let fields ← atomizeFields path fields
    pure (.recordNew fields)
  | .tupleNew elems => form path do
    let elems ← atomizeAll path elems
    pure (.tupleNew (elems.map .var))
  | .variantNew tag payload => form path do
    let payload ← atomizeOption path payload
    pure (.variantNew tag (payload.map .var))
  | .listNew elems => form path do
    let elems ← atomizeAll path elems
    pure (.listNew (elems.map .var))
  | .loop body _ => form path do
    let body ← lowerCoreExpr path body
    pure (.loop body)
  | .breakWith value => form path do
    let value ← lowerCoreExpr path value
    pure (.breakWith value)
  | .continueLoop => pure .continueLoop
  | .whileLoop cond body _ => operator do
    let cond ← lowerCoreExpr .localPath cond
    let condTmp ← Fresh.next
    let body ← lowerCoreExpr .localPath body
    let bodyTmp ← Fresh.next
    pure (desugarWhile (temporary condTmp) cond (temporary bodyTmp) body)
  | .forEach binding collection body => form path do
    let collectionName ← atomize collection (lowerCoreExpr path collection)
    let body ← lowerCoreExpr path body
    pure (.forEach binding collectionName body)
  | .fold init list func => form path do
    let initName ← atomize init (lowerCoreExpr path init)
    let listName ← atomize list (lowerCoreExpr path list)
    let funcName ← atomize func (lowerCoreExpr path func)
    pure (.fold initName listName funcName)
  | .cellNew init => form path do
    let initName ← atomize init (lowerCoreExpr path init)
    pure (.cellNew initName)
  | .cellGet cell => form path do
    let cellName ← atomize cell (lowerCoreExpr path cell)
    pure (.cellGet cellName)
  | .cellSet cell value => form path do
    let cellName ← atomize cell (lowerCoreExpr path cell)
    let valueName ← atomize value (lowerCoreExpr path value)
    pure (.cellSet cellName valueName)
  | .mapNew entries => form path do
    let entries ← atomizeEntries path entries
    pure (.mapNew entries)
  | .setNew elements => form path do
    let elements ← atomizeAll path elements
    pure (.setNew elements)
  | .indexGet collection index => form path do
    let collectionName ← atomize collection (lowerCoreExpr path collection)
    let indexName ← atomize index (lowerCoreExpr path index)
    pure (.indexGet collectionName indexName)
  -- From here on the local lowering has no arm of its own.
  | .lambda params body => fallThrough path do
    let body ← lowerCoreExpr .globalPath body
    pure (.lambda params (lambdaCaptures params body) body)
  | .returnWith value => fallThrough path do
    let valueName ← atomize value (lowerCoreExpr .globalPath value)
    pure (.returnWith (.var valueName))
  | .assume predicate reason => pure (.assume predicate reason)
  | .abort message => pure (.abort message)
  | .channelNew capacity => pure (.channelNew capacity)
  | .placeholder => pure .placeholder
  | .dispatch handler method args => fallThrough path do
    let args ← atomizeAll .globalPath args
    pure (.dispatch handler method args)
  | .taskSpawn func args => fallThrough path do
    let args ← atomizeAll .globalPath args
    pure (.taskSpawn func args)
  | .channelSend channel value => fallThrough path do
    let channelName ← atomize channel (lowerCoreExpr .globalPath channel)
    let valueName ← atomize value (lowerCoreExpr .globalPath value)
    pure (.channelSend channelName valueName)
  | .channelReceive channel => fallThrough path do
    let channelName ← atomize channel (lowerCoreExpr .globalPath channel)
    pure (.channelReceive channelName)
  | .runtimeCheck checkRef cond msg => fallThrough path do
    let condName ← atomize cond (lowerCoreExpr .globalPath cond)
    pure (.runtimeCheck checkRef condName msg)
  | .resourceAcquire resource args => fallThrough path do
    let args ← atomizeAll .globalPath args
    pure (.resourceAcquire resource args)
  | .resourceRelease handle => fallThrough path do
    let handleName ← atomize handle (lowerCoreExpr .globalPath handle)
    pure (.resourceRelease handleName)
  | .taskAwait task => fallThrough path do
    let taskName ← atomize task (lowerCoreExpr .globalPath task)
    pure (.taskAwait taskName)
  | .taskCancel task => fallThrough path do
    let taskName ← atomize task (lowerCoreExpr .globalPath task)
    pure (.taskCancel taskName)
  | .taskGroup body => fallThrough path do
    let body ← lowerCoreExpr .globalPath body
    pure (.taskGroup body)
  | .select branches => fallThrough path do
    let branches ← lowerBranches branches
    pure (.select branches)
  | .timeout duration body => fallThrough path do
    let durationName ← atomize duration (lowerCoreExpr .globalPath duration)
    let body ← lowerCoreExpr .globalPath body
    pure (.timeout durationName body)
  | .boundaryCall boundary func args => fallThrough path do
    let args ← atomizeAll .globalPath args
    pure (.call (boundary ++ "::" ++ func) args)
  | .dynCall interface method args => fallThrough path do
    let args ← atomizeAll .globalPath args
    pure (.call ("dyn::" ++ interface ++ "::" ++ method) args)
  | .capabilityUse capability args => fallThrough path do
    let args ← atomizeAll .globalPath args
    pure (.effectCall capability capability args)
  | .resourceUse handle body => fallThrough path do
    let _ ← atomize handle (lowerCoreExpr .globalPath handle)
    lowerCoreExpr .globalPath body
  | .resourceUsing resource binding body => fallThrough path do
    let resourceName ← atomize resource (lowerCoreExpr .globalPath resource)
    Fresh.emit (binding, .resourceAcquire resourceName [])
    let result ← lowerCoreExpr .globalPath body
    let releaseTmp ← Fresh.next
    Fresh.emit (temporary releaseTmp, .resourceRelease binding)
    pure result
  | .resourceTransfer handle target => fallThrough path do
    let handleName ← atomize handle (lowerCoreExpr .globalPath handle)
    let targetName ← atomize target (lowerCoreExpr .globalPath target)
    pure (.call "__resource_transfer" [handleName, targetName])
  | .foreignFunctionCall func args => fallThrough path do
    let args ← atomizeAll .globalPath args
    pure (.call ("__foreign::" ++ func) args)
  | .patchFieldConstruct state value => fallThrough path do
    let payload ← atomizeOption .globalPath value
    pure (.variantNew state (payload.map .var))
  | .patchFieldMatch scrutinee arms => fallThrough path do
    let scrutineeName ← atomize scrutinee (lowerCoreExpr .globalPath scrutinee)
    let arms ← lowerArms .globalPath arms
    pure (.matchOn scrutineeName arms)

/-- Atomize the operands of a list in order. -/
def atomizeAll (path : Path) : List CoreExpr → Lowering (List String)
  | [] => pure []
  | operand :: operands => do
    let name ← atomize operand (lowerCoreExpr path operand)
    let names ← atomizeAll path operands
    pure (name :: names)

def atomizeFields (path : Path) : List (String × CoreExpr) → Lowering (List (String × AnfExpr))
  | [] => pure []
  | (field, value) :: fields => do
    let name ← atomize value (lowerCoreExpr path value)
    let fields ← atomizeFields path fields
    pure ((field, .var name) :: fields)

def atomizeEntries (path : Path) : List (CoreExpr × CoreExpr) → Lowering (List (String × String))
  | [] => pure []
  | (key, value) :: entries => do
    let keyName ← atomize key (lowerCoreExpr path key)
    let valueName ← atomize value (lowerCoreExpr path value)
    let entries ← atomizeEntries path entries
    pure ((keyName, valueName) :: entries)

def atomizeOption (path : Path) : Option CoreExpr → Lowering (Option String)
  | none => pure none
  | some operand => do
    let name ← atomize operand (lowerCoreExpr path operand)
    pure (some name)

def lowerArms (path : Path) : List (String × CoreExpr) → Lowering (List (String × AnfExpr))
  | [] => pure []
  | (pattern, body) :: arms => do
    let body ← lowerCoreExpr path body
    let arms ← lowerArms path arms
    pure ((pattern, body) :: arms)

def lowerBranches : List (CoreExpr × String × CoreExpr) →
    Lowering (List (String × String × AnfExpr))
  | [] => pure []
  | (channel, binding, body) :: branches => do
    let channelName ← atomize channel (lowerCoreExpr .globalPath channel)
    let body ← lowerCoreExpr .globalPath body
    let branches ← lowerBranches branches
    pure ((channelName, binding, body) :: branches)

end

example : (lowerCoreExpr .localPath (.call "f" [.var "x", .call "g" [.literal .unit]])).value 7 =
    .letIn "anf_8" (.letIn "anf_7" (.literal .unit) (.call "g" ["anf_7"]))
      (.call "f" ["x", "anf_8"]) := rfl

/-! ## Nodes -/

/-- The bindings a node becomes: one, on the local path, under the name of
the node. A node without a body is the unit literal. -/
def mapCoreNodeToAnf (node : CoreNode) (fresh : Nat) : List AnfBinding × Nat :=
  match node.expr with
  | some e =>
    ([⟨node.sourceRef, node.name, (lowerCoreExpr .localPath e).value fresh⟩],
      (lowerCoreExpr .localPath e).counter fresh)
  | none => ([⟨node.sourceRef, node.name, .literal .unit⟩], fresh)

end Ail.Compiler
