import Ail.Lib.Wasm

/-!
# Runs of WebAssembly code

Rules for reasoning about `execAll`: code runs piece by piece, a run of
straight-line code that reaches its end can be read back instruction by
instruction, a word in memory is what was last stored there, and what
every write and every call keeps, every run keeps.
-/

namespace Ail.Lib.Wasm

open List

variable {η : Type} {instr : Instr} {values : List Val} {code : Module}
  {host : Nat → List Val → Store η → Reply η}

/-! ## Memory -/

namespace Memory

theorem littleEndian_congr {bytes bytes' : Nat → UInt8} {address count : Nat}
    (hsame : ∀ i, address ≤ i → i < address + count → bytes i = bytes' i) :
    littleEndian bytes address count = littleEndian bytes' address count := by
  induction count generalizing address with
  | zero => rfl
  | succ count ih =>
    rw [littleEndian, littleEndian, hsame address (by omega) (by omega),
      ih fun i hle hlt => hsame i (by omega) (by omega)]

/-- The digits of a number from the `skip`-th on, read back. -/
theorem littleEndian_digit (value address count skip : Nat) (hskip : skip ≤ address) :
    littleEndian (fun i => digit value (i - (address - skip))) address count =
      value / 256 ^ skip % 256 ^ count := by
  induction count generalizing address skip with
  | zero => simp [littleEndian, Nat.mod_one]
  | succ count ih =>
    have hrest := ih (address + 1) (skip + 1) (by omega)
    rw [show address + 1 - (skip + 1) = address - skip by omega] at hrest
    calc littleEndian (fun i => digit value (i - (address - skip))) address (count + 1)
        = value / 256 ^ skip % 256 + 256 * (value / 256 ^ (skip + 1) % 256 ^ count) := by
          rw [littleEndian, hrest, show address - (address - skip) = skip by omega, digit,
            UInt8.toNat_ofNat']
      _ = value / 256 ^ skip % (256 * 256 ^ count) := by
          rw [Nat.pow_succ, ← Nat.div_div_eq_div_mul, ← Nat.mod_mul]
      _ = value / 256 ^ skip % 256 ^ (count + 1) := by rw [Nat.pow_succ']

variable {memory memory' : Memory} {address count value : Nat}

theorem copy_size {dst src : Nat} (hcopy : memory.copy dst src count = some memory') :
    memory'.size = memory.size := by
  unfold copy at hcopy
  split at hcopy
  · rw [← Option.some.inj hcopy]
  · cases hcopy

section Stored

variable (hstore : memory.store address count value = some memory')
include hstore

theorem store_eq_some : address + count ≤ memory.size ∧
    memory' = { memory with
      byte := fun i =>
        if address ≤ i ∧ i < address + count then digit value (i - address)
        else memory.byte i } := by
  unfold store at hstore
  split at hstore
  · exact ⟨‹_›, (Option.some.inj hstore).symm⟩
  · cases hstore

/-- A store does not change the size. -/
theorem store_size : memory'.size = memory.size := by
  rw [(store_eq_some hstore).2]

/-- What was stored is read back, as far as it fits. -/
theorem load_store_same : memory'.load address count = some (value % 256 ^ count) := by
  obtain ⟨hbound, rfl⟩ := store_eq_some hstore
  rw [load, if_pos hbound]
  refine congrArg some (Eq.trans (littleEndian_congr fun i hle hlt => if_pos ⟨hle, hlt⟩) ?_)
  simpa using littleEndian_digit value address count 0 (Nat.zero_le _)

/-- A store leaves what lies elsewhere. -/
theorem load_store_disjoint {address' count' : Nat}
    (hdisjoint : address' + count' ≤ address ∨ address + count ≤ address') :
    memory'.load address' count' = memory.load address' count' := by
  obtain ⟨hbound, rfl⟩ := store_eq_some hstore
  unfold load
  split
  · exact congrArg some (littleEndian_congr fun i hle hlt => if_neg (by omega))
  · rfl

end Stored

end Memory

/-! ## Code in pieces -/

namespace Outcome

variable {outcome : Outcome η} {rest : Machine η → Outcome η} {final : Machine η}

theorem machine?_eq_some : outcome.machine? = some final ↔ outcome = .next final := by
  cases outcome <;> simp [machine?]

theorem andThen_eq_next : outcome.andThen rest = .next final ↔ ∃ machine, outcome = .next machine ∧
      rest machine = .next final := by
  cases outcome <;> simp [andThen]

end Outcome

variable {link : Linkage η} {machine final : Machine η}

/-- Code that runs to its end, cut in two. -/
theorem execAll_append_next {first second : List Instr} :
    execAll link (first ++ second) machine = .next final ↔
      ∃ middle, execAll link first machine = .next middle ∧
        execAll link second middle = .next final := by
  rw [execAll_append, Outcome.andThen_eq_next]

theorem execAll_cons_next {rest : List Instr} :
    execAll link (instr :: rest) machine = .next final ↔
      ∃ middle, exec link instr machine = .next middle ∧
        execAll link rest middle = .next final := by
  rw [execAll, Outcome.andThen_eq_next]

theorem execAll_nil_next : execAll link [] machine = .next final ↔ machine = final := by
  simp [execAll]

/-! ## Straight-line code -/

/-- An instruction without control runs in one step. -/
theorem exec_plain_next (hplain : instr.isPlain) {middle : Machine η} :
    exec link instr machine = .next middle ↔ simple machine instr = some middle := by
  rw [exec_of_isPlain hplain]
  cases simple machine instr <;> simp

namespace Machine

variable (machine : Machine η) (stack : List Val) (memory : Memory)

@[simp] theorem withStack_locals : (machine.withStack stack).locals = machine.locals := rfl
@[simp] theorem withStack_store : (machine.withStack stack).store = machine.store := rfl
@[simp] theorem setMemory_stack : (machine.setMemory stack memory).stack = stack := rfl
@[simp] theorem setMemory_locals : (machine.setMemory stack memory).locals = machine.locals := rfl
@[simp] theorem setMemory_memory : (machine.setMemory stack memory).store.memory = memory := rfl

end Machine

section Inversion

variable {machine' : Machine η} {index offset : Nat}

theorem exec_localGet_next : exec link (.localGet index) machine = .next machine' ↔
      ∃ value, machine.locals[index]? = some value ∧
        machine' = machine.withStack (value :: machine.stack) := by
  rw [exec_plain_next rfl, simple, Option.map_eq_some_iff]
  simp [eq_comm]

theorem exec_globalGet_next : exec link (.globalGet index) machine = .next machine' ↔
      ∃ value, machine.store.globals[index]? = some value ∧
        machine' = machine.withStack (value :: machine.stack) := by
  rw [exec_plain_next rfl, simple, Option.map_eq_some_iff]
  simp [eq_comm]

theorem exec_localSet_next : exec link (.localSet index) machine = .next machine' ↔
      ∃ value rest, machine.stack = value :: rest ∧ index < machine.locals.length ∧
        machine' = { machine with stack := rest, locals := machine.locals.set index value } := by
  rw [exec_plain_next rfl]
  cases hstack : machine.stack with
  | nil => simp [simple, hstack]
  | cons value rest => simp [simple, hstack, eq_comm]

theorem exec_globalSet_next : exec link (.globalSet index) machine = .next machine' ↔
      ∃ value rest, machine.stack = value :: rest ∧ index < machine.store.globals.length ∧
        machine' = { machine with
          stack := rest
          store := { machine.store with globals := machine.store.globals.set index value } } := by
  rw [exec_plain_next rfl]
  cases hstack : machine.stack with
  | nil => simp [simple, hstack]
  | cons value rest => simp [simple, hstack, eq_comm]

theorem exec_i32Add_next (hrun : exec link .i32Add machine = .next machine') :
    ∃ a b rest, machine.stack = .i32 b :: .i32 a :: rest ∧
      machine' = machine.withStack (.i32 (a + b) :: rest) := by
  rw [exec_plain_next rfl, Instr.i32Add, simple] at hrun
  split at hrun
  next b a rest hstack =>
    exact ⟨a, b, rest, hstack, (Option.some.inj hrun).symm⟩
  next => cases hrun

theorem exec_i32Store_next (hrun : exec link (.i32Store offset) machine = .next machine') :
    ∃ value base rest memory, machine.stack = .i32 value :: .i32 base :: rest ∧
      machine.store.memory.store (base.toNat + offset) 4 value.toNat = some memory ∧
      machine' = machine.setMemory rest memory := by
  rw [exec_plain_next rfl, simple] at hrun
  split at hrun
  next value base rest hstack =>
    obtain ⟨memory, hmemory, rfl⟩ := Option.map_eq_some_iff.mp hrun
    exact ⟨value, base, rest, memory, hstack, hmemory, rfl⟩
  next => cases hrun

theorem exec_i64Store_next (hrun : exec link (.i64Store offset) machine = .next machine') :
    ∃ value base rest memory, machine.stack = .i64 value :: .i32 base :: rest ∧
      machine.store.memory.store (base.toNat + offset) 8 value.toNat = some memory ∧
      machine' = machine.setMemory rest memory := by
  rw [exec_plain_next rfl, simple] at hrun
  split at hrun
  next value base rest hstack =>
    obtain ⟨memory, hmemory, rfl⟩ := Option.map_eq_some_iff.mp hrun
    exact ⟨value, base, rest, memory, hstack, hmemory, rfl⟩
  next => cases hrun

end Inversion

/-! ## Calls -/

/-- A property of stores that writes inside the bounds and calls keep. -/
structure Kept (link : Linkage η) (keeps : Store η → Prop) : Prop where
  setGlobals (store : Store η) (globals : List Val) : keeps store → keeps { store with globals }
  setMemory (store : Store η) (memory : Memory) (hsize : memory.size = store.memory.size) :
    keeps store → keeps { store with memory }
  call (func : Nat) (args results : List Val) (store store' : Store η)
    (hcall : link.call func args store = .done results store') : keeps store → keeps store'

/-- The machine a run stopped in, if it has one, satisfies `p`. -/
def Outcome.Holds (p : Machine η → Prop) : Outcome η → Prop
  | .next machine | .branch _ machine | .returned machine => p machine
  | .trap | .outOfFuel => True

section Kept

variable {keeps : Store η → Prop} {outcome : Outcome η}

theorem Outcome.Holds.andThen {p : Machine η → Prop} {rest : Machine η → Outcome η}
    (hfirst : outcome.Holds p) (hrest : ∀ machine, p machine → (rest machine).Holds p) :
    (outcome.andThen rest).Holds p := by
  cases outcome with
  | next machine => exact hrest machine hfirst
  | branch depth machine => exact hfirst
  | returned machine => exact hfirst
  | trap => trivial
  | outOfFuel => trivial

theorem Outcome.Holds.leave {result : Option ValType} {outer : List Val}
    (hholds : outcome.Holds fun m => keeps m.store) :
    (leave result outer outcome).Holds fun m => keeps m.store := by
  cases outcome with
  | next machine => exact hholds
  | branch depth machine => cases depth <;> exact hholds
  | returned machine => exact hholds
  | trap => trivial
  | outOfFuel => trivial

/-- What a turn keeps, a loop keeps. -/
theorem turns_holds {body : Machine η → Outcome η}
    (hbody : ∀ m : Machine η, keeps m.store → (body m).Holds fun m => keeps m.store)
    (outer : List Val) (rounds : Nat) (machine : Machine η) (hkeeps : keeps machine.store) :
    (turns body outer rounds machine).Holds fun m => keeps m.store := by
  induction rounds generalizing machine with
  | zero => trivial
  | succ rounds ih =>
    have hturn := hbody (machine.withStack []) hkeeps
    rw [turns]
    cases hrun : body (machine.withStack []) with
    | next machine => rw [hrun] at hturn; exact hturn
    | branch depth machine =>
      rw [hrun] at hturn
      cases depth with
      | zero => exact ih machine hturn
      | succ depth => exact hturn
    | returned machine => rw [hrun] at hturn; exact hturn
    | trap => trivial
    | outOfFuel => trivial

/-- A plain step keeps what the linkage keeps. -/
theorem simple_keeps (hkept : Kept link keeps) {machine machine' : Machine η}
    (hsimple : simple machine instr = some machine') (hkeeps : keeps machine.store) :
    keeps machine'.store := by
  have hload : ∀ {rest base offset count value},
      machine.loadInto rest base offset count value = some machine' → keeps machine'.store := by
    intro rest base offset count value heq
    obtain ⟨word, -, rfl⟩ := Option.map_eq_some_iff.mp heq
    exact hkeeps
  have hstore : ∀ {rest base offset count word},
      machine.storeFrom rest base offset count word = some machine' → keeps machine'.store := by
    intro rest base offset count word heq
    obtain ⟨memory, hmemory, rfl⟩ := Option.map_eq_some_iff.mp heq
    exact hkept.setMemory _ _ (Memory.store_size hmemory) hkeeps
  cases instr with
  | i32Load offset | i64Load offset | i32Load8U offset =>
    simp only [simple] at hsimple
    split at hsimple
    · exact hload hsimple
    · cases hsimple
  | i32Store offset | i64Store offset =>
    simp only [simple] at hsimple
    split at hsimple
    · exact hstore hsimple
    · cases hsimple
  | memoryCopy =>
    simp only [simple] at hsimple
    split at hsimple
    · obtain ⟨memory, hmemory, rfl⟩ := Option.map_eq_some_iff.mp hsimple
      exact hkept.setMemory _ _ (Memory.copy_size hmemory) hkeeps
    · cases hsimple
  | globalSet index =>
    simp only [simple] at hsimple
    split at hsimple
    · split at hsimple
      · cases hsimple
        exact hkept.setGlobals _ _ hkeeps
      · cases hsimple
    · cases hsimple
  | localSet index =>
    simp only [simple] at hsimple
    split at hsimple
    · split at hsimple
      · cases hsimple
        exact hkeeps
      · cases hsimple
    · cases hsimple
  | localGet index | globalGet index =>
    obtain ⟨value, -, rfl⟩ := Option.map_eq_some_iff.mp hsimple
    exact hkeeps
  | const value =>
    cases hsimple
    exact hkeeps
  | binary32 op | binary64 op =>
    simp only [simple] at hsimple
    split at hsimple
    · obtain ⟨value, -, rfl⟩ := Option.map_eq_some_iff.mp hsimple
      exact hkeeps
    · cases hsimple
  | compare32 op | compare64 op | i32Eqz | i64Eqz | i32WrapI64 | i64ExtendI32U | i64ExtendI32S
  | drop =>
    simp only [simple] at hsimple
    split at hsimple
    · cases hsimple
      exact hkeeps
    · cases hsimple
  | _ => cases hsimple

theorem callFunction_keeps (hkept : Kept link keeps) (func : Nat)
    (hkeeps : keeps machine.store) :
    (callFunction link machine func).Holds fun m => keeps m.store := by
  unfold callFunction
  split
  · trivial
  · dsimp only
    split
    · split
      · exact hkept.call _ _ _ _ _ ‹_› hkeeps
      · trivial
      · trivial
    · trivial

mutual

theorem exec_keeps (hkept : Kept link keeps) (instr : Instr) (machine : Machine η)
    (hkeeps : keeps machine.store) : (exec link instr machine).Holds fun m => keeps m.store := by
  cases instr with
  | unreachable => trivial
  | ret => exact hkeeps
  | br depth => exact hkeeps
  | brIf depth =>
    simp only [exec]
    split
    · split <;> exact hkeeps
    · trivial
  | call func => exact callFunction_keeps hkept func hkeeps
  | callIndirect type =>
    simp only [exec]
    split
    · split
      · trivial
      · split
        · exact callFunction_keeps hkept _ hkeeps
        · trivial
    · trivial
  | block result body =>
    exact (execAll_keeps hkept body (machine.withStack []) hkeeps).leave
  | loop result body =>
    exact turns_holds (execAll_keeps hkept body) _ _ _ hkeeps
  | ifElse result thenCode elseCode =>
    simp only [exec]
    split
    · refine Outcome.Holds.leave ?_
      split
      · exact execAll_keeps hkept elseCode _ hkeeps
      · exact execAll_keeps hkept thenCode _ hkeeps
    · trivial
  | _ =>
    rw [exec_of_isPlain rfl]
    cases hsimple : simple machine _ with
    | none => trivial
    | some machine' => exact simple_keeps hkept hsimple hkeeps

/-- So does a whole run of code. -/
theorem execAll_keeps (hkept : Kept link keeps) (code : List Instr) (machine : Machine η)
    (hkeeps : keeps machine.store) :
    (execAll link code machine).Holds fun m => keeps m.store := by
  match code with
  | [] => exact hkeeps
  | instr :: rest =>
    exact (exec_keeps hkept instr machine hkeeps).andThen (execAll_keeps hkept rest)

end

end Kept

/-- What writes, the host and so every call keep, a call of a module's
function keeps. -/
theorem invoke_keeps {keeps : Store η → Prop} (hglobals : ∀ (store : Store η) (globals : List Val),
      keeps store → keeps { store with globals })
    (hmemory : ∀ (store : Store η) (memory : Memory), memory.size = store.memory.size →
      keeps store → keeps { store with memory })
    (hhost : ∀ func args results store store', host func args store = .done results store' →
      keeps store → keeps store') (fuel func : Nat) (args results : List Val)
    (store store' : Store η) (hcall : invoke code host fuel func args store = .done results store')
    (hkeeps : keeps store) : keeps store' := by
  induction fuel generalizing func args results store store' with
  | zero => cases hcall
  | succ fuel ih =>
    have hkept : Kept (code.linkage (invoke code host fuel) fuel) keeps :=
      ⟨hglobals, hmemory, ih⟩
    rw [invoke] at hcall
    split at hcall
    · exact hhost _ _ _ _ _ hcall hkeeps
    · split at hcall
      · cases hcall
      next function _ =>
        have hholds := execAll_keeps hkept function.body
          { stack := [], locals := args ++ function.locals.map ValType.zero, store } hkeeps
        rw [Function.run] at hcall
        revert hcall hholds
        cases execAll _ function.body _ with
        | next machine | returned machine =>
          intro hcall hholds
          cases hcall
          exact hholds
        | branch depth machine =>
          intro hcall hholds
          cases depth with
          | zero => cases hcall; exact hholds
          | succ depth => cases hcall
        | trap => intro hcall; cases hcall
        | outOfFuel => intro hcall; cases hcall

/-- No instruction grows a memory, so it grows only if the host lets it. -/
theorem run_memory_size
    (hhost : ∀ func args results store store', host func args store = .done results store' →
      store'.memory.size = store.memory.size) {fuel : Nat} {function : Function} {args : List Val}
    {store : Store η}
    (hrun : function.run (code.linkage (invoke code host fuel) fuel) args store = .next final) :
    final.store.memory.size = store.memory.size := by
  have hkept : Kept (code.linkage (invoke code host fuel) fuel)
      fun s => s.memory.size = store.memory.size :=
    { setGlobals := fun _ _ hsize => hsize
      setMemory := fun _ _ hsame hsize => hsame.trans hsize
      call := invoke_keeps (fun _ _ hsize => hsize) (fun _ _ hsame hsize => hsame.trans hsize)
        (fun _ _ _ _ _ hcall hsize => (hhost _ _ _ _ _ hcall).trans hsize) fuel }
  have hholds := execAll_keeps hkept function.body
    { stack := [], locals := args ++ function.locals.map ValType.zero, store } rfl
  rw [Function.run] at hrun
  rw [hrun] at hholds
  exact hholds

end Ail.Lib.Wasm
