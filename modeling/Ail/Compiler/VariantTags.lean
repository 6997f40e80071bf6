import Ail.Compiler.WasmModule
import Ail.Lib.WasmRun

/-!
# Discriminants of variants

What `assign_tag` promises over the emission of a whole function
(`TagsKept`): a well-known tag has its reserved discriminant, any other
one has a discriminant of at least 2. And what the code of a constructor
leaves behind (`variantCode_next`): the address of a word with the
discriminant and, 8 bytes further, the payload.
-/

namespace Ail.Compiler

open Ail.Core Lib Lib.Wasm Relation List WasmCodegenCtx Machine

/-! ## Tags over an emission -/

/-- A discriminant that `tag` may have while the counter is at `next`. -/
def TagFits (next : Nat) (tag : String) (id : Nat) : Prop :=
  wellKnownVariantTag tag = some id ∨ wellKnownVariantTag tag = none ∧ 2 ≤ id ∧ id < next

variable {tag : String} {id next : Nat}

theorem TagFits.mono {next' : Nat} (hle : next ≤ next') (hfits : TagFits next tag id) :
    TagFits next' tag id := by
  rcases hfits with hknown | ⟨hother, hlow, hhigh⟩
  · exact .inl hknown
  · exact .inr ⟨hother, hlow, by omega⟩

theorem TagFits.lt {bound : Nat} (hfits : TagFits next tag id) (hreserved : 2 ≤ bound)
    (hnext : next ≤ bound) : id < bound := by
  unfold TagFits wellKnownVariantTag at hfits
  split at hfits
  · simp at hfits
    omega
  · split at hfits <;> simp at hfits <;> omega

/-- A user tag never takes a reserved discriminant. -/
theorem TagFits.eq_zero_iff (hfits : TagFits next tag id) : id = 0 ↔ tag = "None" ∨ tag = "Ok" := by
  unfold TagFits wellKnownVariantTag at hfits
  split at hfits
  next hzero => simp_all
  next hother =>
    have hne : id ≠ 0 := by
      split at hfits <;> simp_all <;> omega
    simp [hne, hother]

structure TagsKept (ctx : WasmCodegenCtx) : Prop where
  reserved : 2 ≤ ctx.nextVariantTag
  fits : ∀ entry ∈ ctx.variantTags, TagFits ctx.nextVariantTag entry.1 entry.2

theorem tagsKept_new (params : List String) (effectData : EffectDataLayout)
    (fold closure : Option Nat) (offset hoisted closureHoisted : Nat) :
    TagsKept (.new params effectData fold closure offset hoisted closureHoisted) :=
  ⟨Nat.le_refl 2, fun _ hmem => nomatch hmem⟩

variable {ctx ctx' : WasmCodegenCtx}

/-- What is assigned fits, and the table keeps what it had. -/
theorem TagsKept.assignTag (hkept : TagsKept ctx) (tag : String) :
    TagsKept (ctx.assignTag tag).2 ∧
    ctx.nextVariantTag ≤ (ctx.assignTag tag).2.nextVariantTag ∧
    TagFits (ctx.assignTag tag).2.nextVariantTag tag (ctx.assignTag tag).1 := by
  obtain ⟨hreserved, hfits⟩ := hkept
  unfold WasmCodegenCtx.assignTag
  cases hfound : ctx.tagOf tag with
  | some existing =>
    obtain ⟨entry, hentry, rfl⟩ := Option.map_eq_some_iff.mp hfound
    have hname : entry.1 = tag := by simpa using find?_some hentry
    exact ⟨⟨hreserved, hfits⟩, Nat.le_refl _, hname ▸ hfits entry (mem_of_find?_eq_some hentry)⟩
  | none =>
    cases hknown : wellKnownVariantTag tag with
    | some id =>
      refine ⟨⟨Nat.le_trans hreserved (Nat.le_max_left ..), ?_⟩, Nat.le_max_left .., .inl hknown⟩
      rintro entry (_ | ⟨_, hmem⟩)
      · exact .inl hknown
      · exact (hfits entry hmem).mono (Nat.le_max_left ..)
    | none =>
      have hnew : TagFits (ctx.nextVariantTag + 1) tag ctx.nextVariantTag :=
        .inr ⟨hknown, hreserved, Nat.lt_succ_self _⟩
      refine ⟨⟨Nat.le_succ_of_le hreserved, ?_⟩, Nat.le_succ _, hnew⟩
      rintro entry (_ | ⟨_, hmem⟩)
      · exact hnew
      · exact (hfits entry hmem).mono (Nat.le_succ _)

theorem TagsKept.step (hstep : ctx.Step ctx') (hkept : TagsKept ctx) :
    TagsKept ctx' ∧ ctx.nextVariantTag ≤ ctx'.nextVariantTag := by
  cases hstep with
  | assignTag tag => exact ⟨(hkept.assignTag tag).1, (hkept.assignTag tag).2.1⟩
  | bindTemp | bind | bindRecordLayout | setError | takeHoisted | takeClosureHoisted =>
    exact ⟨⟨hkept.reserved, hkept.fits⟩, Nat.le_refl _⟩

/-- Emission keeps the table, and its counter only grows. -/
theorem TagsKept.reaches (hreaches : ReflTransGen Step ctx ctx')
    (hkept : TagsKept ctx) : TagsKept ctx' ∧ ctx.nextVariantTag ≤ ctx'.nextVariantTag :=
  Emitter.preserves (P := fun ctx' => TagsKept ctx' ∧ ctx.nextVariantTag ≤ ctx'.nextVariantTag)
    (fun _ _ hstep hbefore =>
      ⟨(hbefore.1.step hstep).1, Nat.le_trans hbefore.2 (hbefore.1.step hstep).2⟩)
    hreaches ⟨hkept, Nat.le_refl _⟩

/-! ## The code of a constructor -/

variable {get : Instr}

section Code

variable {η : Type} {link : Linkage η} {machine final : Machine η}

/-- The head of every allocation: the address goes to a local and the
stack is as before. -/
theorem allocCode_next {size ptr : Nat}
    (hrun : execAll link (allocCode size ++ [.localSet ptr]) machine = .next final) :
    ∃ base globals, ptr < machine.locals.length ∧
      final = { machine with
        locals := machine.locals.set ptr (.i32 base)
        store := { machine.store with globals } } := by
  simp only [allocCode, cons_append, nil_append, execAll_cons_next, execAll_nil_next,
    exec_globalGet_next, exec_globalSet_next, exec_localSet_next, Instr.i32Const,
    exec_const_next] at hrun
  obtain ⟨_, ⟨value, hglobal, rfl⟩, _, ⟨value', hglobal', rfl⟩, _, rfl, sum, hadd, _,
    ⟨top, rest, hrest, hindex, rfl⟩, _, ⟨base, rest', hrest', hptr, rfl⟩, rfl⟩ := hrun
  obtain ⟨a, b, rest'', hstack, rfl⟩ := exec_i32Add_next hadd
  obtain ⟨-, rfl, rfl⟩ := hstack
  obtain ⟨-, rfl⟩ := hrest
  obtain ⟨rfl, rfl⟩ := hrest'
  obtain rfl : value = Val.i32 a := by simpa [hglobal] using hglobal'
  exact ⟨a, _, hptr, rfl⟩

/-- The code of a constructor whose payload is one instruction. -/
def variantCode (ptr tag : Nat) (payload : Instr) : List Instr :=
  allocCode 16 ++ [.localSet ptr] ++ [.localGet ptr, .i32Const tag, .i32Store 0, .localGet ptr,
    payload, .i64Store 8, .localGet ptr]

/-- The address of an object is on top of the stack; the object lies inside
the memory, with a discriminant and a payload in it. -/
def Constructed (tag : Nat) (payload : BitVec 64) (machine : Machine η) : Prop :=
  ∃ (base : BitVec 32) (rest : List Val), machine.stack = .i32 base :: rest ∧
    machine.store.memory.load base.toNat 4 = some (tag % 2 ^ 32) ∧
    machine.store.memory.load (base.toNat + 8) 8 = some payload.toNat ∧
    base.toNat + 16 ≤ machine.store.memory.size

/-- The payload instruction runs where the address is in its local already. -/
theorem variantCode_next {ptr tag : Nat} {payload : BitVec 64}
    (hget : ∀ base (m m' : Machine η), m.locals = machine.locals.set ptr (.i32 base) →
      exec link get m = .next m' → m' = m.withStack (.i64 payload :: m.stack))
    (hrun : execAll link (variantCode ptr tag get) machine = .next final) :
    Constructed tag payload final := by
  obtain ⟨_, halloc, hfill⟩ := execAll_append_next.mp hrun
  obtain ⟨base, globals, hptr, rfl⟩ := allocCode_next halloc
  have hlocal : (machine.locals.set ptr (.i32 base))[ptr]? = some (.i32 base) := by simp [hptr]
  simp only [execAll_cons_next, execAll_nil_next, exec_localGet_next, Instr.i32Const,
    exec_const_next] at hfill
  obtain ⟨_, ⟨_, hptr₁, rfl⟩, _, rfl, _, htag, _, ⟨_, hptr₂, rfl⟩, _, hpayload, _, hstore, _,
    ⟨_, hptr₃, rfl⟩, rfl⟩ := hfill
  obtain ⟨word, base', _, memory, hstack, hmemory, rfl⟩ := exec_i32Store_next htag
  obtain rfl := hget base _ _ rfl hpayload
  obtain ⟨word', base'', _, memory', hstack', hmemory', rfl⟩ := exec_i64Store_next hstore
  simp only [withStack_locals, setMemory_locals, withStack_store, setMemory_memory, hlocal,
    Option.some.injEq, Nat.add_zero] at *
  subst hptr₁ hptr₂ hptr₃
  obtain ⟨⟨rfl⟩, ⟨rfl⟩, rfl⟩ := hstack
  obtain ⟨⟨rfl⟩, ⟨rfl⟩, rfl⟩ := hstack'
  refine ⟨base, _, rfl, ?_, ?_, ?_⟩
  · rw [withStack_store, setMemory_memory,
      Memory.load_store_disjoint hmemory' (.inl (by omega)), Memory.load_store_same hmemory]
    simp
  · rw [withStack_store, setMemory_memory, Memory.load_store_same hmemory']
    exact congrArg some (Nat.mod_eq_of_lt (BitVec.isLt _))
  · have hbound := (Memory.store_eq_some hmemory').1
    rw [withStack_store, setMemory_memory, Memory.store_size hmemory']
    omega

end Code

/-! ## Bodies that construct a variant -/

/-- The items an emission adds and the context it leaves. -/
def Emits {α : Type} (emit : Emit α) (ctx : WasmCodegenCtx) (items : List Instr)
    (ctx' : WasmCodegenCtx) : Prop :=
  (emit.run ctx).items = items ∧ (emit.run ctx).state = ctx'

variable (lets : List (String × AnfExpr))

/-- An expression under lets. -/
def letsIn (body : AnfExpr) : AnfExpr :=
  lets.foldr (fun entry rest => .letIn entry.1 entry.2 rest) body

variable (functions : Functions)

/-- A `let` is emitted up to its body, whatever the body is. -/
theorem emit_letIn (name : String) (value : AnfExpr) (ctx : WasmCodegenCtx) :
    ∃ ctx' before, ReflTransGen Step ctx ctx' ∧ ∀ body,
      let run := (emitAnfExpr functions body).run ctx'
      Emits (emitAnfExpr functions (.letIn name value body)) ctx (before ++ run.items)
        run.state := by
  let first := (emitAnfExpr functions value).run ctx
  let type := first.value.getD .i32
  let idx := first.state.nextLocal
  let bound := (first.state.bind name type).2
  have hvalue : ReflTransGen Step ctx first.state :=
    (emitAnfExpr functions value).reaches ctx
  have hbound : ReflTransGen Step ctx bound :=
    hvalue.tail (.bind first.state name type)
  cases hfields : recordLayoutFields value with
  | none =>
    refine ⟨bound, first.items ++ [.localSet idx], hbound, ?_⟩
    intro body
    rw [Emits, emitAnfExpr, hfields, append_assoc]
    exact ⟨rfl, rfl⟩
  | some fields =>
    refine ⟨bound.bindRecordLayout name fields,
      first.items ++ [.localSet idx], hbound.tail (.bindRecordLayout bound name fields), ?_⟩
    intro body
    rw [Emits, emitAnfExpr, hfields, append_assoc]
    exact ⟨rfl, rfl⟩

/-- The code under lets ends with the code of the body, emitted from a
context that the lets lead to. -/
theorem emit_letsIn (lets : List (String × AnfExpr)) (body : AnfExpr)
    (ctx : WasmCodegenCtx) :
    ∃ ctx' before, ReflTransGen Step ctx ctx' ∧
      let run := (emitAnfExpr functions body).run ctx'
      Emits (emitAnfExpr functions (letsIn lets body)) ctx (before ++ run.items)
        run.state := by
  induction lets generalizing ctx with
  | nil => exact ⟨ctx, [], .refl, rfl, rfl⟩
  | cons entry lets ih =>
    obtain ⟨ctx₁, before₁, hreaches₁, hlet⟩ :=
      emit_letIn functions entry.1 entry.2 ctx
    obtain ⟨hitems₁, hstate₁⟩ := hlet (letsIn lets body)
    obtain ⟨ctx₂, before₂, hreaches₂, hitems₂, hstate₂⟩ := ih ctx₁
    refine ⟨ctx₂, before₁ ++ before₂, hreaches₁.trans hreaches₂, ?_, ?_⟩
    · rw [append_assoc, ← hitems₂]
      exact hitems₁
    · exact hstate₁.trans hstate₂

/-- The payload `n` of a constructor under lets: a literal, or a name that
the last let binds to it, which is how the lowering to ANF writes it. The
emitter keeps the object's address under a name of its own. -/
inductive IntPayload (n : Int64) : List (String × AnfExpr) → AnfExpr → Prop
  | literal (lets : List (String × AnfExpr)) : IntPayload n lets (.literal (.int n))
  | bound (lets : List (String × AnfExpr)) (name : String) (hname : name ≠ "__variant_ptr") :
    IntPayload n (lets ++ [(name, .literal (.int n))]) (.var name)

/-- A name with a word in its slot is read by one instruction. -/
theorem emitI64Value_var {name : String} {idx : Nat}
    (hlookup : ctx.lookup name = some (idx, .i64)) :
    Emits (emitI64Value (emitAnfExpr functions (.var name))) ctx [.localGet idx] ctx := by
  have hrun : (emitAnfExpr functions (.var name)).run ctx =
      ⟨some .i64, [.localGet idx], ctx⟩ := by
    rw [emitAnfExpr, Emitter.run_bind]
    simp only [Compiler.lookup, Emitter.read, hlookup]
    rfl
  rw [Emits, emitI64Value, Emitter.run_bind, hrun]
  exact ⟨rfl, rfl⟩

/-- A constructor is emitted around its payload. -/
theorem emit_variantNew (tag : String) (payload : AnfExpr) (ctx : WasmCodegenCtx)
    (hpayload : Emits (emitI64Value (emitAnfExpr functions payload))
      ((ctx.bind "__variant_ptr" .i32).2.assignTag tag).2 [get] ctx') :
    Emits (emitAnfExpr functions (.variantNew tag (some payload))) ctx
      (variantCode ctx.nextLocal ((ctx.bind "__variant_ptr" .i32).2.assignTag tag).1 get) ctx' := by
  let inner := (emitI64Value (emitAnfExpr functions payload)).run
    ((ctx.bind "__variant_ptr" .i32).2.assignTag tag).2
  refine ⟨?_, hpayload.2⟩
  calc _ = allocCode 16 ++ [.localSet ctx.nextLocal, .localGet ctx.nextLocal,
          .i32Const ((ctx.bind "__variant_ptr" .i32).2.assignTag tag).1, .i32Store 0,
          .localGet ctx.nextLocal] ++ (inner.items ++ [.i64Store 8] ++ [.localGet ctx.nextLocal]) :=
        rfl
    _ = _ := by
      rw [hpayload.1]
      rfl

/-- The code of a constructor under lets: it assigns a discriminant that fits
the tag, and a run that reaches its end has constructed the object. -/
theorem emit_constructor {η : Type} {n : Int64} {lets : List (String × AnfExpr)} {payload : AnfExpr}
    (hpayload : IntPayload n lets payload) (functions : Functions) (tag : String)
    (hkept : TagsKept ctx) :
    let run := (emitAnfExpr functions (letsIn lets (.variantNew tag (some payload)))).run ctx
    ∃ id, TagFits run.state.nextVariantTag tag id ∧
      ∀ (link : Linkage η) (machine final : Machine η),
        execAll link run.items machine = .next final → Constructed id n.toBitVec final := by
  intro run
  cases hpayload with
  | literal =>
    obtain ⟨ctx', before, hreaches, hitems, hstate⟩ := emit_letsIn functions lets
      (.variantNew tag (some (.literal (.int n)))) ctx
    let bound := (ctx'.bind "__variant_ptr" .i32).2
    have hbound : TagsKept bound := (hkept.reaches (hreaches.tail (.bind ctx' _ _))).1
    obtain ⟨hcode, hend⟩ :=
      emit_variantNew functions tag (.literal (.int n)) ctx' ⟨rfl, rfl⟩
    refine ⟨(bound.assignTag tag).1, ?_, ?_⟩
    · rw [hstate]
      exact (hbound.assignTag tag).2.2
    · intro link machine final hrun
      rw [hitems] at hrun
      obtain ⟨middle, -, hvariant⟩ := execAll_append_next.mp hrun
      refine variantCode_next (fun base m m' _ hget => ?_) hvariant
      rw [Instr.i64Const, exec_const_next] at hget
      simpa using hget
  | bound lets name hname =>
    have hlets : letsIn (lets ++ [(name, .literal (.int n))]) (.variantNew tag (some (.var name))) =
        letsIn lets (.letIn name (.literal (.int n)) (.variantNew tag (some (.var name)))) := by
      simp [letsIn]
    obtain ⟨ctx', before, hreaches, hitems, hstate⟩ := emit_letsIn functions lets
      (.letIn name (.literal (.int n)) (.variantNew tag (some (.var name)))) ctx
    rw [← hlets] at hitems hstate
    let named := (ctx'.bind name .i64).2
    let bound := (named.bind "__variant_ptr" .i32).2
    have hbound : TagsKept bound :=
      (hkept.reaches ((hreaches.tail (.bind ctx' _ _)).tail (.bind named _ _))).1
    have hlookup : (bound.assignTag tag).2.lookup name = some (ctx'.nextLocal, .i64) := by
      rw [WasmCodegenCtx.lookup, assignTag_locals]
      simp [bound, named, WasmCodegenCtx.bind, findSlot, hname.symm]
    obtain ⟨hcode, hend⟩ := emit_variantNew functions tag (.var name) named
      (emitI64Value_var functions hlookup)
    refine ⟨(bound.assignTag tag).1, ?_, ?_⟩
    · rw [hstate]
      exact hend ▸ (hbound.assignTag tag).2.2
    · intro link machine final hrun
      have hall : run.items = before ++ ([.i64Const n.toInt, .localSet ctx'.nextLocal] ++
          variantCode named.nextLocal (bound.assignTag tag).1 (.localGet ctx'.nextLocal)) := by
        rw [← hcode]
        exact hitems
      rw [hall] at hrun
      obtain ⟨middle, -, hrest⟩ := execAll_append_next.mp hrun
      obtain ⟨start, hset, hvariant⟩ := execAll_append_next.mp hrest
      simp only [execAll_cons_next, execAll_nil_next, Instr.i64Const, exec_const_next,
        exec_localSet_next] at hset
      obtain ⟨_, rfl, _, ⟨value, rest, hstack, hindex, rfl⟩, rfl⟩ := hset
      cases hstack
      refine variantCode_next (fun base m m' hlocals hget => ?_) hvariant
      -- the object's address went to the next local
      have hne : ctx'.nextLocal + 1 ≠ ctx'.nextLocal := Nat.succ_ne_self _
      obtain ⟨value, hvalue, rfl⟩ := exec_localGet_next.mp hget
      rw [hlocals] at hvalue
      simp only [named, WasmCodegenCtx.bind] at hvalue hindex
      rw [getElem?_set_ne hne, getElem?_set_self hindex] at hvalue
      cases hvalue
      simp

theorem inferExprType_letsIn {body : AnfExpr} {type : ValType}
    (hbody : ∀ locals, inferExprType body locals = some type) (locals : List (String × ValType)) :
    inferExprType (letsIn lets body) locals = some type := by
  induction lets generalizing locals with
  | nil => exact hbody locals
  | cons entry lets ih =>
    exact ih _

theorem deriveWasmType_letsIn {body : AnfExpr} {descriptor : WasmTypeDescriptor}
    (hbody : ∀ locals, deriveWasmTypeWithLocals body locals = descriptor)
    (locals : List (String × WasmTypeDescriptor)) :
    deriveWasmTypeWithLocals (letsIn lets body) locals = descriptor := by
  induction lets generalizing locals with
  | nil => exact hbody locals
  | cons entry lets ih =>
    exact ih _

end Ail.Compiler
