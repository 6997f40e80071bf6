import Mathlib

/-!
# WebAssembly

The instructions a code generator for one memory, one table and no
multi-value blocks uses, with structured control kept as a tree, and
their execution.

A run is bounded: a loop makes at most `rounds` turns, and what a call
does is a parameter (`Linkage.call`), which `invoke` ties to the
functions of a module up to a depth. Straight-line code takes no fuel.
Operands of the wrong shape trap; a validated module never has them.
-/

namespace Ail.Lib.Wasm

inductive ValType where
  | i32 | i64 | f64
  deriving DecidableEq

/-- A float is its bit pattern. -/
inductive Val where
  | i32 (value : BitVec 32)
  | i64 (value : BitVec 64)
  | f64 (bits : BitVec 64)

def ValType.zero : ValType → Val
  | .i32 => .i32 0
  | .i64 => .i64 0
  | .f64 => .f64 0

structure FuncType where
  params : List ValType
  results : List ValType
  deriving DecidableEq

inductive BinOp where
  | add | sub | mul | divS | remS | and | or | xor | shl | shrS | shrU

inductive RelOp where
  | eq | ne | ltS | ltU | leS | gtS | gtU | geS | geU

/-- `block`, `loop` and `ifElse` carry their block type: no parameters and
at most one result. -/
inductive Instr where
  | const (value : Val)
  | binary32 (op : BinOp)
  | binary64 (op : BinOp)
  | compare32 (op : RelOp)
  | compare64 (op : RelOp)
  | i32Eqz
  | i64Eqz
  | i32WrapI64
  | i64ExtendI32U
  | i64ExtendI32S
  | localGet (index : Nat)
  | localSet (index : Nat)
  | globalGet (index : Nat)
  | globalSet (index : Nat)
  | i32Load (offset : Nat)
  | i64Load (offset : Nat)
  | i32Load8U (offset : Nat)
  | i32Store (offset : Nat)
  | i64Store (offset : Nat)
  | memoryCopy
  | drop
  | unreachable
  | ret
  | br (depth : Nat)
  | brIf (depth : Nat)
  | call (func : Nat)
  | callIndirect (type : Nat)
  | block (result : Option ValType) (body : List Instr)
  | loop (result : Option ValType) (body : List Instr)
  | ifElse (result : Option ValType) (thenCode elseCode : List Instr)

namespace Instr

def i32Const (value : Int) : Instr := .const (.i32 (.ofInt 32 value))
def i64Const (value : Int) : Instr := .const (.i64 (.ofInt 64 value))
def f64Const (bits : BitVec 64) : Instr := .const (.f64 bits)

def i32Add : Instr := .binary32 .add
def i32Sub : Instr := .binary32 .sub
def i32And : Instr := .binary32 .and
def i32Or : Instr := .binary32 .or
def i32Xor : Instr := .binary32 .xor
def i32Eq : Instr := .compare32 .eq
def i32Ne : Instr := .compare32 .ne
def i32LtU : Instr := .compare32 .ltU
def i32GtU : Instr := .compare32 .gtU
def i32GeU : Instr := .compare32 .geU

def i64Add : Instr := .binary64 .add
def i64Sub : Instr := .binary64 .sub
def i64Mul : Instr := .binary64 .mul
def i64DivS : Instr := .binary64 .divS
def i64RemS : Instr := .binary64 .remS
def i64And : Instr := .binary64 .and
def i64Or : Instr := .binary64 .or
def i64Xor : Instr := .binary64 .xor
def i64Shl : Instr := .binary64 .shl
def i64ShrS : Instr := .binary64 .shrS
def i64ShrU : Instr := .binary64 .shrU
def i64Eq : Instr := .compare64 .eq
def i64Ne : Instr := .compare64 .ne
def i64LtS : Instr := .compare64 .ltS
def i64LeS : Instr := .compare64 .leS
def i64GtS : Instr := .compare64 .gtS
def i64GeS : Instr := .compare64 .geS
def i64GeU : Instr := .compare64 .geU

end Instr

/-! ## Arithmetic -/

variable {w : Nat}

/-- `none` traps. A shift counts modulo the width. -/
def BinOp.eval (op : BinOp) (a b : BitVec w) : Option (BitVec w) :=
  match op with
  | .add => some (a + b)
  | .sub => some (a - b)
  | .mul => some (a * b)
  | .divS => if b = 0 ∨ (a = .intMin w ∧ b = -1) then none else some (a.sdiv b)
  | .remS => if b = 0 then none else some (a.srem b)
  | .and => some (a &&& b)
  | .or => some (a ||| b)
  | .xor => some (a ^^^ b)
  | .shl => some (a <<< (b.toNat % w))
  | .shrS => some (a.sshiftRight (b.toNat % w))
  | .shrU => some (a >>> (b.toNat % w))

def RelOp.eval (op : RelOp) (a b : BitVec w) : Bool :=
  match op with
  | .eq => a = b
  | .ne => a ≠ b
  | .ltS => a.slt b
  | .ltU => a.ult b
  | .leS => a.sle b
  | .gtS => b.slt a
  | .gtU => b.ult a
  | .geS => b.sle a
  | .geU => b.ule a

def truth (b : Bool) : Val := .i32 (if b then 1 else 0)

/-! ## Memory -/

variable (memory : Memory)

structure Memory where
  size : Nat
  byte : Nat → UInt8

namespace Memory

/-- The number of `count` bytes from `address` on, least significant first. -/
def littleEndian (bytes : Nat → UInt8) (address : Nat) : Nat → Nat
  | 0 => 0
  | count + 1 => (bytes address).toNat + 256 * littleEndian bytes (address + 1) count

def load (address count : Nat) : Option Nat :=
  if address + count ≤ memory.size then some (littleEndian memory.byte address count) else none

/-- Byte `i` of a number. -/
def digit (value i : Nat) : UInt8 := .ofNat (value / 256 ^ i)

def store (address count value : Nat) : Option Memory :=
  if address + count ≤ memory.size then
    some { memory with
      byte := fun i =>
        if address ≤ i ∧ i < address + count then digit value (i - address) else memory.byte i }
  else none

def copy (dst src count : Nat) : Option Memory :=
  if dst + count ≤ memory.size ∧ src + count ≤ memory.size then
    some { memory with
      byte := fun i =>
        if dst ≤ i ∧ i < dst + count then memory.byte (src + (i - dst)) else memory.byte i }
  else none

end Memory

/-! ## Execution -/

variable {η : Type}

/-- What outlives a call: globals, memory, and the world of the host. -/
structure Store (η : Type) where
  globals : List Val
  memory : Memory
  world : η

structure Machine (η : Type) where
  stack : List Val
  locals : List Val
  store : Store η

inductive Reply (η : Type) where
  | done (results : List Val) (store : Store η)
  | trap
  | outOfFuel

/-- `branch` is a branch to the label that many blocks further out. -/
inductive Outcome (η : Type) where
  | next (machine : Machine η)
  | branch (depth : Nat) (machine : Machine η)
  | returned (machine : Machine η)
  | trap
  | outOfFuel

def Outcome.machine? : Outcome η → Option (Machine η)
  | .next machine => some machine
  | _ => none

/-- What follows, if control gets there. -/
def Outcome.andThen (outcome : Outcome η) (rest : Machine η → Outcome η) : Outcome η :=
  match outcome with
  | .next machine => rest machine
  | .branch depth machine => .branch depth machine
  | .returned machine => .returned machine
  | .trap => .trap
  | .outOfFuel => .outOfFuel

variable (machine : Machine η)

/-- What code is linked against: the types of the module, the type of each
function, the function table, and what a call does. -/
structure Linkage (η : Type) where
  types : List FuncType
  funcs : List FuncType
  table : List Nat
  call : Nat → List Val → Store η → Reply η
  rounds : Nat

namespace Machine

def withStack (stack : List Val) : Machine η := { machine with stack }

def setMemory (stack : List Val) (memory : Memory) : Machine η :=
  { machine with stack, store := { machine.store with memory } }

def loadInto (rest : List Val) (base : BitVec 32) (offset count : Nat) (value : Nat → Val) :
    Option (Machine η) :=
  (machine.store.memory.load (base.toNat + offset) count).map
    fun word => machine.withStack (value word :: rest)

def storeFrom (rest : List Val) (base : BitVec 32) (offset count : Nat) (word : Nat) :
    Option (Machine η) :=
  (machine.store.memory.store (base.toNat + offset) count word).map (machine.setMemory rest)

end Machine

/-- One instruction without control; `none` traps. -/
def simple : Instr → Option (Machine η)
  | .const value => some (machine.withStack (value :: machine.stack))
  | .binary32 op =>
    match machine.stack with
    | .i32 b :: .i32 a :: rest => (op.eval a b).map fun v => machine.withStack (.i32 v :: rest)
    | _ => none
  | .binary64 op =>
    match machine.stack with
    | .i64 b :: .i64 a :: rest => (op.eval a b).map fun v => machine.withStack (.i64 v :: rest)
    | _ => none
  | .compare32 op =>
    match machine.stack with
    | .i32 b :: .i32 a :: rest => some (machine.withStack (truth (op.eval a b) :: rest))
    | _ => none
  | .compare64 op =>
    match machine.stack with
    | .i64 b :: .i64 a :: rest => some (machine.withStack (truth (op.eval a b) :: rest))
    | _ => none
  | .i32Eqz =>
    match machine.stack with
    | .i32 a :: rest => some (machine.withStack (truth (a = 0) :: rest))
    | _ => none
  | .i64Eqz =>
    match machine.stack with
    | .i64 a :: rest => some (machine.withStack (truth (a = 0) :: rest))
    | _ => none
  | .i32WrapI64 =>
    match machine.stack with
    | .i64 a :: rest => some (machine.withStack (.i32 (a.setWidth 32) :: rest))
    | _ => none
  | .i64ExtendI32U =>
    match machine.stack with
    | .i32 a :: rest => some (machine.withStack (.i64 (a.setWidth 64) :: rest))
    | _ => none
  | .i64ExtendI32S =>
    match machine.stack with
    | .i32 a :: rest => some (machine.withStack (.i64 (a.signExtend 64) :: rest))
    | _ => none
  | .localGet index =>
    machine.locals[index]?.map fun value => machine.withStack (value :: machine.stack)
  | .localSet index =>
    match machine.stack with
    | value :: rest =>
      if index < machine.locals.length then
        some { machine with stack := rest, locals := machine.locals.set index value }
      else none
    | _ => none
  | .globalGet index =>
    machine.store.globals[index]?.map fun value => machine.withStack (value :: machine.stack)
  | .globalSet index =>
    match machine.stack with
    | value :: rest =>
      if index < machine.store.globals.length then
        some { machine with
          stack := rest
          store := { machine.store with globals := machine.store.globals.set index value } }
      else none
    | _ => none
  | .i32Load offset =>
    match machine.stack with
    | .i32 base :: rest => machine.loadInto rest base offset 4 fun n => .i32 (.ofNat 32 n)
    | _ => none
  | .i64Load offset =>
    match machine.stack with
    | .i32 base :: rest => machine.loadInto rest base offset 8 fun n => .i64 (.ofNat 64 n)
    | _ => none
  | .i32Load8U offset =>
    match machine.stack with
    | .i32 base :: rest => machine.loadInto rest base offset 1 fun n => .i32 (.ofNat 32 n)
    | _ => none
  | .i32Store offset =>
    match machine.stack with
    | .i32 value :: .i32 base :: rest => machine.storeFrom rest base offset 4 value.toNat
    | _ => none
  | .i64Store offset =>
    match machine.stack with
    | .i64 value :: .i32 base :: rest => machine.storeFrom rest base offset 8 value.toNat
    | _ => none
  | .memoryCopy =>
    match machine.stack with
    | .i32 count :: .i32 src :: .i32 dst :: rest =>
      (machine.store.memory.copy dst.toNat src.toNat count.toNat).map (machine.setMemory rest)
    | _ => none
  | .drop =>
    match machine.stack with
    | _ :: rest => some (machine.withStack rest)
    | _ => none
  | _ => none

/-- Call function `func` with the operands its type asks for. -/
def callFunction (link : Linkage η) (machine : Machine η) (func : Nat) : Outcome η :=
  match link.funcs[func]? with
  | none => .trap
  | some type =>
    let arity := type.params.length
    if arity ≤ machine.stack.length then
      match link.call func (machine.stack.take arity).reverse machine.store with
      | .done results store =>
        .next { machine with stack := results.reverse ++ machine.stack.drop arity, store }
      | .trap => .trap
      | .outOfFuel => .outOfFuel
    else .trap

/-- The end of a block, seen from outside: a branch to its label keeps the
block's result and nothing else. -/
def leave (result : Option ValType) (outer : List Val) : Outcome η → Outcome η
  | .next machine => .next (machine.withStack (machine.stack ++ outer))
  | .branch 0 machine =>
    .next (machine.withStack (machine.stack.take result.toList.length ++ outer))
  | .branch (depth + 1) machine => .branch depth machine
  | .returned machine => .returned machine
  | .trap => .trap
  | .outOfFuel => .outOfFuel

/-- The turns of a loop: a branch to its label starts the next one. -/
def turns (body : Machine η → Outcome η) (outer : List Val) : Nat → Machine η → Outcome η
  | 0, _ => .outOfFuel
  | n + 1, machine =>
    match body (machine.withStack []) with
    | .branch 0 machine => turns body outer n machine
    | .branch (depth + 1) machine => .branch depth machine
    | .next machine => .next (machine.withStack (machine.stack ++ outer))
    | .returned machine => .returned machine
    | .trap => .trap
    | .outOfFuel => .outOfFuel

mutual

def exec (link : Linkage η) : Instr → Machine η → Outcome η
  | .unreachable, _ => .trap
  | .ret, machine => .returned machine
  | .br depth, machine => .branch depth machine
  | .brIf depth, machine =>
    match machine.stack with
    | .i32 cond :: rest =>
      if cond = 0 then .next (machine.withStack rest) else .branch depth (machine.withStack rest)
    | _ => .trap
  | .call func, machine => callFunction link machine func
  | .callIndirect type, machine =>
    match machine.stack with
    | .i32 index :: rest =>
      match link.table[index.toNat]? with
      | none => .trap
      | some func =>
        if link.funcs[func]? = link.types[type]? then
          callFunction link (machine.withStack rest) func
        else .trap
    | _ => .trap
  | .block result body, machine =>
    leave result machine.stack (execAll link body (machine.withStack []))
  | .loop _ body, machine => turns (execAll link body) machine.stack link.rounds machine
  | .ifElse result thenCode elseCode, machine =>
    match machine.stack with
    | .i32 cond :: rest =>
      leave result rest
        (if cond = 0 then execAll link elseCode (machine.withStack [])
         else execAll link thenCode (machine.withStack []))
    | _ => .trap
  | instr, machine =>
    match simple machine instr with
    | some machine => .next machine
    | none => .trap

def execAll (link : Linkage η) : List Instr → Machine η → Outcome η
  | [], machine => .next machine
  | instr :: rest, machine => (exec link instr machine).andThen (execAll link rest)

end

/-! ## Modules -/

structure Function where
  type : FuncType
  locals : List ValType
  body : List Instr

/-- The imported functions come first in the index space. -/
structure Module where
  types : List FuncType
  imports : List FuncType
  functions : List Function
  table : List Nat

def Module.funcs (code : Module) : List FuncType :=
  code.imports ++ code.functions.map (·.type)

/-- The end of a function: its results are on top of the stack, whether the
body ran to its end, returned, or branched to the outermost label. -/
def finish (type : FuncType) : Outcome η → Reply η
  | .next machine | .returned machine | .branch 0 machine =>
    .done (machine.stack.take type.results.length).reverse machine.store
  | .branch (_ + 1) _ | .trap => .trap
  | .outOfFuel => .outOfFuel

/-- Run the body of a function; its locals are the arguments and the
declared ones, at zero. -/
def Function.run (function : Function) (link : Linkage η) (args : List Val) (store : Store η) :
    Outcome η :=
  execAll link function.body
    { stack := [], locals := args ++ function.locals.map ValType.zero, store }

def Module.linkage (code : Module) (call : Nat → List Val → Store η → Reply η) (rounds : Nat) :
    Linkage η :=
  { types := code.types, funcs := code.funcs, table := code.table, call, rounds }

/-- Call a function of a module: an import asks the host, any other runs
its body, with calls one level less deep. -/
def invoke (code : Module) (host : Nat → List Val → Store η → Reply η) :
    Nat → Nat → List Val → Store η → Reply η
  | 0, _, _, _ => .outOfFuel
  | fuel + 1, func, args, store =>
    if func < code.imports.length then host func args store
    else
      match code.functions[func - code.imports.length]? with
      | none => .trap
      | some function =>
        finish function.type (function.run (code.linkage (invoke code host fuel) fuel) args store)

/-! ## Running code -/

theorem Outcome.andThen_assoc (outcome : Outcome η) (rest last : Machine η → Outcome η) :
    (outcome.andThen rest).andThen last = outcome.andThen fun m => (rest m).andThen last := by
  cases outcome <;> rfl

/-- Code runs piece by piece. -/
theorem execAll_append (link : Linkage η) (first second : List Instr) (machine : Machine η) :
    execAll link (first ++ second) machine =
      (execAll link first machine).andThen (execAll link second) := by
  induction first generalizing machine with
  | nil => rfl
  | cons instr first ih =>
    rw [List.cons_append, execAll, execAll, Outcome.andThen_assoc]
    exact congrArg _ (funext ih)

/-- Instructions without control. -/
def Instr.isPlain : Instr → Bool
  | .unreachable | .ret | .br _ | .brIf _ | .call _ | .callIndirect _ | .block _ _ | .loop _ _
  | .ifElse _ _ _ => false
  | _ => true

variable {link : Linkage η}

theorem exec_of_isPlain {instr : Instr} (hplain : instr.isPlain) (machine : Machine η) :
    exec link instr machine = (simple machine instr).elim .trap .next := by
  cases instr with
  | unreachable | ret | br | brIf | call | callIndirect | block | loop | ifElse =>
    exact absurd hplain Bool.false_ne_true
  | _ =>
    simp only [exec]
    split <;> simp [*]

theorem exec_const_next {machine machine' : Machine η} {value : Val} :
    exec link (.const value) machine = .next machine' ↔
      machine' = machine.withStack (value :: machine.stack) := by
  simp [exec, simple, eq_comm]

end Ail.Lib.Wasm
