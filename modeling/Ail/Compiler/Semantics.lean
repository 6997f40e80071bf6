import Ail.Compiler.Anf
import Ail.Compiler.ExprParser
import Ail.Compiler.IntOps
import Ail.Lib.Simulation

/-!
# A reference semantics of A-normal form

Call by value over environments. The forms follow the code the backend
emits for them (`wasm_emit/expr.rs`, `wasm_emit/control.rs`); what it
does not emit yet (tasks, channels, dispatch, select, timeouts) is a
request to the host, as effects are.

Values are data, not addresses. The host sees values from the outside
(`View`): a closure shows its number of parameters, a cell its number.
Whatever the program asks of the host is an event of the trace: effects,
scheduling, resources, and calls of functions that are not known to be
quiet. A closure keeps the captures its lambda lists and nothing else, as
the closure record does that the backend allocates.

Runs are bounded: a loop makes at most `n` rounds and functions are
applied at most `n` deep. A run that does not end is `outOfFuel` at
every bound.
-/

namespace Ail.Compiler

open Ail.Core Lib

/-! ## Values -/

inductive DataKind where
  | record (fields : List String)
  | tuple
  | variant (tag : String)
  | list
  | map
  | set

inductive Value where
  | lit (value : LiteralValue)
  | data (kind : DataKind) (parts : List Value)
  | function (name : String)
  | closure (params : List String) (body : AnfExpr) (env : String → Value)
  | cell (address : Nat)

instance : Inhabited Value := ⟨.lit .unit⟩

/-- What the host can see of a value. -/
inductive View where
  | lit (value : LiteralValue)
  | data (kind : DataKind) (parts : List View)
  | function (name : String)
  | closure (arity : Nat)
  | cell (address : Nat)

mutual

def Value.view : Value → View
  | .lit value => .lit value
  | .data kind parts => .data kind (Value.viewAll parts)
  | .function name => .function name
  | .closure params _ _ => .closure params.length
  | .cell address => .cell address

def Value.viewAll : List Value → List View
  | [] => []
  | value :: values => value.view :: Value.viewAll values

end

/-- Every name stands for a value. -/
abbrev Env := String → Value

def Env.set (env : Env) (name : String) (value : Value) : Env :=
  fun x => if x = name then value else env x

/-- Later pairs are bound first, so an earlier one shadows them. -/
def Env.bindAll (env : Env) (bindings : List (String × Value)) : Env :=
  bindings.foldr (fun binding env => env.set binding.1 binding.2) env

/-- The environment of a closure. A name that is not listed reads as unit
there; the backend emits a trap for it. -/
def Env.restrict (env : Env) (captures : List String) : Env :=
  fun x => if x ∈ captures then env x else .lit .unit

/-- The value of a field, if the value is a record that has it. -/
def Value.field (value : Value) (field : String) : Option Value :=
  match value with
  | .data (.record fields) parts => ((fields.zip parts).find? (·.1 = field)).map (·.2)
  | _ => none

/-- The record with one field replaced. -/
def Value.setField (value : Value) (field : String) (new : Value) : Option Value :=
  match value with
  | .data (.record fields) parts =>
    if field ∈ fields then
      some (.data (.record fields)
        ((fields.zip parts).map fun slot => if slot.1 = field then new else slot.2))
    else none
  | _ => none

/-- What a loop runs over. -/
def Value.elements : Value → Option (List Value)
  | .data .list parts => some parts
  | .data .set parts => some parts
  | _ => none

/-! ## The host -/

inductive Request where
  | effect (capability func : String)
  | dispatch (handler method : String)
  | call (func : String)
  | spawn (func : String)
  | send
  | receive
  | acquire (resource : String)
  | release
  | await
  | cancel
  | group
  | channel (capacity : Option UInt64)
  | select
  | timeout

structure Event where
  request : Request
  args : List View

inductive Reply where
  | value (value : Value)
  | trap
  | hang

/-- Everything outside the expression. -/
structure Host where
  /-- The word an integer instruction sees where the operand is neither an
  integer nor a boolean. -/
  address : View → Int64
  /-- The functions that return without an effect or a trap. -/
  quiet : String → Option (List View → Value)
  /-- The reply to a request, after the events so far. -/
  answer : List Event → Event → Reply
  /-- The branch a select takes. -/
  ready : List Event → List View → Nat

/-- The word an integer instruction sees. -/
def Host.word (host : Host) : Value → Int64
  | .lit (.int value) => value
  | .lit (.bool value) => if value then 1 else 0
  | value => host.address value.view

def Host.truthy (host : Host) (value : Value) : Bool := host.word value ≠ 0

structure State where
  trace : List Event
  cells : List Value

/-- Why an expression does not give a value. -/
inductive Stop where
  | brk (value : Value)
  | cont
  | ret (value : Value)
  | trap
  | outOfFuel

abbrev Comp (α : Type) := EStateM Stop State α

def unit : Value := .lit .unit

def perform (host : Host) (request : Request) (args : List Value) : Comp Value := fun st =>
  let event : Event := ⟨request, Value.viewAll args⟩
  let after : State := { st with trace := st.trace ++ [event] }
  match host.answer st.trace event with
  | .value value => .ok value after
  | .trap => .error .trap after
  | .hang => .error .outOfFuel after

/-- `emit_call_expr`: primitives come before functions. -/
def callFunction (host : Host) (func : String) (args : List Value) : Comp Value :=
  match (intOp func).bind fun op => runInts op (args.map host.word) with
  | some (some value) => pure (.lit value)
  | some none => throw .trap
  | none =>
    match host.quiet func with
    | some run => pure (run (Value.viewAll args))
    | none => perform host (.call func) args

/-- A value that may be missing, in which case the program traps. -/
def orTrap : Option Value → Comp Value
  | some value => pure value
  | none => throw .trap

def newCell (value : Value) : Comp Value := fun st =>
  .ok (.cell st.cells.length) { st with cells := st.cells ++ [value] }

def getCell : Value → Comp Value
  | .cell address => fun st => orTrap st.cells[address]? st
  | _ => throw .trap

def setCell (cell value : Value) : Comp Value :=
  match cell with
  | .cell address => fun st =>
    if address < st.cells.length then .ok unit { st with cells := st.cells.set address value }
    else .error .trap st
  | _ => throw .trap

/-! ## Patterns -/

inductive PatternMatch where
  | yes (bindings : List (String × Value))
  | no
  /-- A pattern that the backend cannot test against such a value. -/
  | stuck

/-- The payload an arm names has to be there. -/
def bindPayload : Option String → List Value → PatternMatch
  | none, _ => .yes []
  | some binder, [payload] => .yes [(binder, payload)]
  | some _, _ => .stuck

/-- Integer and boolean patterns compare words. -/
def matchWord (pattern : String) (word : Int64) : PatternMatch :=
  match parseI64Pattern pattern, parseBoolPattern pattern with
  | some expected, _ => if word = expected then .yes [] else .no
  | none, some expected => if word = (if expected then 1 else 0) then .yes [] else .no
  | none, none => .stuck

/-- One arm's test, as in `emit_match_arms`. -/
def matchPattern (host : Host) (pattern : String) (value : Value) : PatternMatch :=
  if trim pattern.toList = ['_'] then .yes []
  else
    match value, parseConstructorPattern pattern, armPayloadBinding pattern with
    | .data (.variant tag) parts, some (tag', _), binder =>
      if tag = tag' then bindPayload binder parts else .no
    | .data (.variant _) _, none, _ => .stuck
    | _, _, some _ => .stuck
    | value, _, none => matchWord pattern (host.word value)

/-! ## Loops -/

/-- One round of `Loop`: only `Continue` starts another. -/
def loopRound (body : Comp Value) : Comp (Option Value) := do
  match ← attempt body with
  | .ok value => pure (some value)
  | .error (.brk value) => pure (some value)
  | .error .cont => pure none
  | .error stop => throw stop

/-- One round of a loop whose body is run for its effects. -/
def bodyRound (body : Comp Value) : Comp (Option Value) := do
  match ← attempt body with
  | .ok _ => pure none
  | .error (.brk _) => pure (some unit)
  | .error .cont => pure none
  | .error stop => throw stop

/-- `ForEach` over the elements that are left. -/
def eachRound (body : Value → Comp Value) : List Value → Comp Value
  | [] => pure unit
  | value :: values => do
    match ← bodyRound (body value) with
    | some result => pure result
    | none => eachRound body values

/-- A collection's elements are handed on; anything else traps. -/
def overElements (collection : Value) (run : List Value → Comp Value) : Comp Value :=
  match collection.elements with
  | some values => run values
  | none => throw .trap

/-! ## Expressions -/

/-- The branch of a select that goes on, given the values of the channels. -/
def readyBranch (host : Host) (channels : List Value) : Comp Nat := fun st =>
  .ok (host.ready st.trace (Value.viewAll channels)) st

section

variable (host : Host) (apply : Value → List Value → Comp Value) (n : Nat)

mutual

/-- The meaning of an expression, given how function values are applied
and how many rounds a loop may make. -/
def evalWith : AnfExpr → Env → Comp Value
  | .literal value, _ => pure (.lit value)
  | .var name, env => pure (env name)
  | .letIn name value body, env => do
    let bound ← evalWith value env
    evalWith body (env.set name bound)
  | .ifElse cond thenBranch elseBranch, env =>
    if host.truthy (env cond) then evalWith thenBranch env else evalWith elseBranch env
  | .call func args, env => callFunction host func (args.map env)
  | .fieldGet record field, env => orTrap ((env record).field field)
  | .returnWith value, env => do
    let result ← evalWith value env
    throw (.ret result)
  | .seq exprs, env => do
    let values ← evalAll exprs env
    pure (values.getLastD unit)
  | .matchOn scrutinee arms, env => evalArms (env scrutinee) arms env
  | .lambda params captures body, env => pure (.closure params body (env.restrict captures))
  | .recordNew fields, env => do
    let values ← evalFields fields env
    pure (.data (.record (fields.map (·.1))) values)
  | .fieldUpdate record field value, env => do
    let new ← evalWith value env
    orTrap ((env record).setField field new)
  | .tupleNew elems, env => do
    let values ← evalAll elems env
    pure (.data .tuple values)
  | .variantNew tag payload, env => do
    let values ← evalOption payload env
    pure (.data (.variant tag) values)
  | .listNew elems, env => do
    let values ← evalAll elems env
    pure (.data .list values)
  | .loop body, env => rounds .outOfFuel (loopRound (evalWith body env)) n
  | .breakWith value, env => do
    let result ← evalWith value env
    throw (.brk result)
  | .continueLoop, _ => throw .cont
  | .whileLoop cond body, env =>
    if host.truthy (env cond) then rounds .outOfFuel (bodyRound (evalWith body env)) n
    else pure unit
  | .shortCircuitAnd left right, env =>
    if host.truthy (env left) then evalWith right env else pure (.lit (.int 0))
  | .shortCircuitOr left right, env =>
    if host.truthy (env left) then pure (.lit (.int 1)) else evalWith right env
  | .effectCall capability func args, env => perform host (.effect capability func) (args.map env)
  | .dispatch handler method args, env => perform host (.dispatch handler method) (args.map env)
  | .taskSpawn func args, env => perform host (.spawn func) (args.map env)
  | .channelSend channel value, env => perform host .send [env channel, env value]
  | .channelReceive channel, env => perform host .receive [env channel]
  -- the condition is that of a violation
  | .runtimeCheck _ cond _, env => if host.truthy (env cond) then throw .trap else pure unit
  | .resourceAcquire resource args, env => perform host (.acquire resource) (args.map env)
  | .resourceRelease handle, env => perform host .release [env handle]
  | .taskAwait task, env => perform host .await [env task]
  | .taskCancel task, env => perform host .cancel [env task]
  | .taskGroup body, env => do
    let result ← evalWith body env
    perform host .group [result]
  | .channelNew capacity, _ => perform host (.channel capacity) []
  | .select branches, env => do
    let channels := branches.map fun branch => env branch.1
    let index ← readyBranch host channels
    let received ← perform host .select channels
    evalBranch index received branches env
  | .timeout duration body, env => do
    let result ← evalWith body env
    perform host .timeout [env duration, result]
  | .cellNew init, env => newCell (env init)
  | .cellGet cell, env => getCell (env cell)
  | .cellSet cell value, env => setCell (env cell) (env value)
  | .assume _ _, _ => pure unit
  | .abort _, _ => throw .trap
  | .indexGet collection index, env =>
    overElements (env collection) fun values =>
      orTrap values[(host.word (env index)).toUInt64.toNat]?
  | .mapNew entries, env =>
    pure (.data .map ((entries.flatMap fun (key, value) => [key, value]).map env))
  | .setNew elements, env => pure (.data .set (elements.map env))
  | .forEach binding collection body, env =>
    overElements (env collection) (eachRound fun value => evalWith body (env.set binding value))
  | .fold init list func, env =>
    overElements (env list) (List.foldlM (fun acc value => apply (env func) [acc, value])
      (env init))
  | .placeholder, _ => throw .trap

def evalAll : List AnfExpr → Env → Comp (List Value)
  | [], _ => pure []
  | e :: es, env => do
    let value ← evalWith e env
    let values ← evalAll es env
    pure (value :: values)

def evalFields : List (String × AnfExpr) → Env → Comp (List Value)
  | [], _ => pure []
  | (_, e) :: fields, env => do
    let value ← evalWith e env
    let values ← evalFields fields env
    pure (value :: values)

def evalOption : Option AnfExpr → Env → Comp (List Value)
  | none, _ => pure []
  | some e, env => do
    let value ← evalWith e env
    pure [value]

def evalArms (value : Value) : List (String × AnfExpr) → Env → Comp Value
  | [], _ => throw .trap
  | (pattern, body) :: arms, env =>
    match matchPattern host pattern value with
    | .yes bindings => evalWith body (env.bindAll bindings)
    | .no => evalArms value arms env
    | .stuck => throw .trap

def evalBranch (index : Nat) (received : Value) : List (String × String × AnfExpr) →
    Env → Comp Value
  | [], _ => throw .trap
  | (_, binding, body) :: branches, env =>
    if index = 0 then evalWith body (env.set binding received)
    else evalBranch (index - 1) received branches env

end

end

/-- The end of a function: a `return` gives its value; a `break` or
`continue` with no loop around it is an `unreachable`. -/
def returned (body : Comp Value) : Comp Value := do
  match ← attempt body with
  | .ok value => pure value
  | .error (.ret value) => pure value
  | .error .outOfFuel => throw .outOfFuel
  | .error _ => throw .trap

/-- Apply a function value, at most `n` deep. -/
def applyValue (host : Host) : Nat → Value → List Value → Comp Value
  | 0, _, _ => throw .outOfFuel
  | n + 1, .closure params body env, args =>
    if params.length = args.length then
      returned (evalWith host (applyValue host n) n body (Env.bindAll env (params.zip args)))
    else throw .trap
  | _ + 1, .function name, args => callFunction host name args
  | _ + 1, _, _ => throw .trap

/-- The meaning of an expression, all bounds being `n`. -/
abbrev eval (host : Host) (n : Nat) : AnfExpr → Env → Comp Value :=
  evalWith host (applyValue host n) n

/-! ## What is observed -/

inductive Ending where
  | value (view : View)
  | trapped
  /-- Not finished within the bound. -/
  | running

structure Outcome where
  ending : Ending
  trace : List Event

def Outcome.ofResult : EStateM.Result Stop State Value → Outcome
  | .ok value st => ⟨.value value.view, st.trace⟩
  | .error .outOfFuel st => ⟨.running, st.trace⟩
  | .error _ st => ⟨.trapped, st.trace⟩

/-- The outcome of running an expression as the body of a function and
then, as long as the result is applied further, of those applications:
closures are observed by what they do. -/
def outcome (host : Host) (n : Nat) (e : AnfExpr) (env : Env) (st : State)
    (uses : List (List Value)) : Outcome :=
  .ofResult ((do
    let result ← returned (eval host n e env)
    uses.foldlM (applyValue host n) result) st)

end Ail.Compiler
