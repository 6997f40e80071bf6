import Ail.Compiler.ParserFacts

/-!
# Scoping of the synthetic names

When does the lowering of a body leave a temporary unbound? On the local
path every temporary is bound around the form that uses it. On the
global path temporaries are passed on to whoever asked, and the two
surface forms that ask for the global path drop them: `lambda` and
`return` have no arm in the local lowering. So a body is `wellScoped` when
no `return` has an operand to name and no lambda body names an operand,
operators and `while` apart, which return to the local path.

`lowering_closed_iff_wellScoped`: the bindings of a parsed body have no
dangling name, whatever number the counter stands at, exactly when the
body is well scoped.
-/

namespace Ail.Compiler

open Ail.Core Lib List Fresh

def CoreExpr.isVar : CoreExpr → Bool
  | .var _ => true
  | _ => false

/-- An operand that needs a temporary is bound on the local path only. -/
def operandScoped (path : Path) (operand : CoreExpr) (inner : Bool) : Bool :=
  match path with
  | .localPath => inner
  | .globalPath => operand.isVar

mutual

/-- No temporary is lost when the expression is lowered on this path. -/
def wellScoped (path : Path) : CoreExpr → Bool
  | .literal _ | .var _ | .continueLoop | .abort _ => true
  | .returnWith value => value.isVar
  | .lambda _ body => wellScoped .globalPath body
  | .whileLoop cond body _ => wellScoped .localPath cond && wellScoped .localPath body
  | .binary _ left right => wellScoped .localPath left && wellScoped .localPath right
  | .not operand => wellScoped .localPath operand
  | .letIn _ value body => wellScoped path value && wellScoped path body
  | .loop body _ | .breakWith body => wellScoped path body
  | .ifElse cond then_ else_ =>
    operandScoped path cond (wellScoped path cond) &&
      (wellScoped path then_ && wellScoped path else_)
  | .and left right | .or left right | .forEach _ left right =>
    operandScoped path left (wellScoped path left) && wellScoped path right
  | .matchOn scrutinee arms =>
    operandScoped path scrutinee (wellScoped path scrutinee) && scopedArms path arms
  | .call _ args | .effectCall _ _ args | .tupleNew args | .listNew args | .setNew args =>
    scopedOperands path args
  | .recordNew fields => scopedFields path fields
  | .mapNew entries => scopedEntries path entries
  | .variantNew _ payload => scopedOption path payload
  | .fieldGet operand _ | .cellNew operand | .cellGet operand =>
    operandScoped path operand (wellScoped path operand)
  | .fieldUpdate left _ right | .cellSet left right | .indexGet left right =>
    operandScoped path left (wellScoped path left) &&
      operandScoped path right (wellScoped path right)
  | .fold init list func =>
    operandScoped path init (wellScoped path init) &&
      (operandScoped path list (wellScoped path list) &&
      operandScoped path func (wellScoped path func))
  -- not surface forms
  | _ => false

def scopedOperands (path : Path) : List CoreExpr → Bool
  | [] => true
  | e :: es => operandScoped path e (wellScoped path e) && scopedOperands path es

def scopedFields (path : Path) : List (String × CoreExpr) → Bool
  | [] => true
  | (_, e) :: fields => operandScoped path e (wellScoped path e) && scopedFields path fields

def scopedEntries (path : Path) : List (CoreExpr × CoreExpr) → Bool
  | [] => true
  | (key, value) :: entries =>
    operandScoped path key (wellScoped path key) &&
      (operandScoped path value (wellScoped path value) && scopedEntries path entries)

def scopedOption (path : Path) : Option CoreExpr → Bool
  | none => true
  | some e => operandScoped path e (wellScoped path e)

def scopedArms (path : Path) : List (String × CoreExpr) → Bool
  | [] => true
  | (_, body) :: arms => wellScoped path body && scopedArms path arms

end

/-- The operand `e` needs no temporary that would be lost. -/
def operandOk (path : Path) (e : CoreExpr) : Bool := operandScoped path e (wellScoped path e)

theorem scopedOperands_eq (path : Path) (es : List CoreExpr) :
    scopedOperands path es = es.all (operandOk path) := by
  induction es with
  | nil => simp [scopedOperands]
  | cons e es ih => simp [scopedOperands, operandOk, ih]

theorem scopedFields_eq (path : Path) (fields : List (String × CoreExpr)) :
    scopedFields path fields = (fields.map (·.2)).all (operandOk path) := by
  induction fields with
  | nil => simp [scopedFields]
  | cons field fields ih => simp [scopedFields, operandOk, ih]

theorem scopedEntries_eq (path : Path) (entries : List (CoreExpr × CoreExpr)) :
    scopedEntries path entries =
      (entries.flatMap fun entry => [entry.1, entry.2]).all (operandOk path) := by
  induction entries with
  | nil => simp [scopedEntries]
  | cons entry entries ih =>
    rw [scopedEntries, ih, flatMap_cons, all_append]
    simp [operandOk, Bool.and_assoc]

theorem scopedOption_eq (path : Path) (payload : Option CoreExpr) :
    scopedOption path payload = payload.toList.all (operandOk path) := by
  cases payload <;> simp [scopedOption, operandOk]

theorem scopedArms_eq (path : Path) (arms : List (String × CoreExpr)) :
    scopedArms path arms =
      (arms.map fun arm => (armBinders arm.1, arm.2)).all fun body => wellScoped path body.2 := by
  induction arms with
  | nil => simp [scopedArms]
  | cons arm arms ih => simp [scopedArms, ih]

variable {e : CoreExpr} {es : List CoreExpr} {path : Path} {n : Nat} {binding : String × AnfExpr}
  {s : Shape} {x : String} {bindings : List (String × AnfExpr)} {body : AnfExpr}
  {bodies : List (List String × CoreExpr)}

/-- A shape is scoped when its operands and bodies are, on its own path. -/
theorem wellScoped_shape (hshape : e.shape = some s) (path : Path) :
    wellScoped path e = (s.operands.all (operandOk (s.path path)) &&
      s.bodies.all fun body => wellScoped (s.path path) body.2) := by
  cases e <;> cases hshape <;>
    simp [wellScoped, scopedOperands_eq, scopedFields_eq, scopedEntries_eq, scopedOption_eq,
      scopedArms_eq, operandOk, operandScoped, Shape.path]

/-! ## The counter -/

@[simp] theorem counter_form (path : Path) (m : Lowering AnfExpr) (n : Nat) :
    (form path m).counter n = m.counter n := by cases path <;> rfl

@[simp] theorem counter_fallThrough (path : Path) (m : Lowering AnfExpr) (n : Nat) :
    (fallThrough path m).counter n = m.counter n := by cases path <;> rfl

@[simp] theorem value_fallThrough (path : Path) (m : Lowering AnfExpr) (n : Nat) :
    (fallThrough path m).value n = m.value n := by cases path <;> rfl

theorem atomize_var (name : String) (m : Lowering AnfExpr) : atomize (.var name) m = pure name :=
  rfl

/-- An operand that is not a variable: lowered, then bound to the next
temporary. -/
theorem atomize_of_not_var (he : e.isVar = false) (m : Lowering AnfExpr) (n : Nat) :
    (atomize e m).value n = temporary (m.counter n) ∧
      (atomize e m).counter n = m.counter n + 1 ∧
      (atomize e m).emitted n = m.emitted n ++ [(temporary (m.counter n), m.value n)] := by
  cases e with
  | var _ => cases he
  | _ => simp [atomize]

theorem eq_var_of_isVar (he : e.isVar = true) : ∃ name, e = .var name := by
  cases e with
  | var name => exact ⟨name, rfl⟩
  | _ => cases he

/-- A lowering never turns the counter back. -/
def Advances {α : Type} (m : Lowering α) : Prop := ∀ n, n ≤ m.counter n

theorem Advances.atomize {m : Lowering AnfExpr} (hm : Advances m) : Advances (atomize e m) := by
  intro n
  cases he : e.isVar with
  | true =>
    obtain ⟨name, rfl⟩ := eq_var_of_isVar he
    exact Nat.le_refl n
  | false =>
    rw [(atomize_of_not_var he m n).2.1]
    exact Nat.le_succ_of_le (hm n)

theorem advances_atomizeAll (hes : ∀ e ∈ es, Advances (lowerCoreExpr path e)) :
    Advances (atomizeAll path es) := by
  induction es with
  | nil => exact Nat.le_refl
  | cons e es ih =>
    intro n
    rw [forall_mem_cons] at hes
    rw [atomizeAll]
    exact Nat.le_trans (hes.1.atomize n) (ih hes.2 _)

theorem advances_lowerAll (hes : ∀ e ∈ es, Advances (lowerCoreExpr path e)) :
    Advances (lowerAll path es) := by
  induction es with
  | nil => exact Nat.le_refl
  | cons e es ih =>
    intro n
    rw [forall_mem_cons] at hes
    rw [lowerAll]
    exact Nat.le_trans (hes.1 n) (ih hes.2 _)

/-- The counter of temporaries never goes back. -/
theorem advances_lowerCoreExpr (he : Surface e) : ∀ path, Advances (lowerCoreExpr path e) := by
  induction he with
  | var _ => exact fun _ => Nat.le_refl
  | shaped hshape _ _ ihOperands ihBodies =>
    rename_i e s
    intro path n
    rw [lowerCoreExpr_shape hshape, counter_form]
    exact Nat.le_trans (advances_atomizeAll (fun o ho => ihOperands o ho _) n)
      (advances_lowerAll (forall_mem_map.2 fun b hb => ihBodies b hb _) _)
  | whileLoop _ _ _ ihCond ihBody =>
    intro path n
    rw [lowerCoreExpr, operator_eq, counter_form]
    have hcond := ihCond .localPath n
    exact Nat.le_succ_of_le (Nat.le_trans (Nat.le_succ_of_le hcond) (ihBody .localPath _))
  | lambda _ _ ihBody =>
    intro path n
    rw [lowerCoreExpr, counter_fallThrough]
    exact ihBody .globalPath n
  | returnWith _ ihValue =>
    intro path n
    rw [lowerCoreExpr, counter_fallThrough]
    exact (ihValue .globalPath).atomize n

theorem advances_operands (hes : ∀ e ∈ es, Surface e) : Advances (atomizeAll path es) :=
  advances_atomizeAll fun e he => advances_lowerCoreExpr (hes e he) path

theorem Shape.path_localPath (s : Shape) : s.path .localPath = .localPath := by simp [Shape.path]

/-- The local path passes nothing on. -/
theorem emitted_localPath (he : Surface e) (n : Nat) :
    (lowerCoreExpr .localPath e).emitted n = [] := by
  cases he with
  | var _ => rfl
  | shaped hshape _ _ =>
    rw [lowerCoreExpr_shape hshape, Shape.path_localPath]
    rfl
  | whileLoop _ _ _ => rfl
  | lambda _ _ => rfl
  | returnWith _ => rfl

theorem length_atomizeAll (path : Path) (es : List CoreExpr) (n : Nat) :
    ((atomizeAll path es).value n).length = es.length := by
  induction es generalizing n with
  | nil => rfl
  | cons e es ih => simp [atomizeAll, ih]

theorem length_lowerAll (path : Path) (es : List CoreExpr) (n : Nat) :
    ((lowerAll path es).value n).length = es.length := by
  induction es generalizing n with
  | nil => rfl
  | cons e es ih => simp [lowerAll, ih]

/-- Bodies lowered in place leave nothing behind. -/
theorem emitted_lowerAll_localPath (hes : ∀ e ∈ es, Surface e) (n : Nat) :
    (lowerAll .localPath es).emitted n = [] := by
  induction es generalizing n with
  | nil => rfl
  | cons e es ih =>
    rw [forall_mem_cons] at hes
    simp [lowerAll, emitted_localPath hes.1, ih hes.2]

/-- On the local path a shape emits the temporaries of its operands only. -/
theorem emitted_lowerParts_localPath (bodies : ∀ body ∈ s.bodies, Surface body.2) (n : Nat) :
    (s.lowerParts .localPath).emitted n = (atomizeAll .localPath s.operands).emitted n := by
  have hnone : ∀ m, (lowerAll .localPath (s.bodies.map (·.2))).emitted m = [] :=
    emitted_lowerAll_localPath (forall_mem_map.2 bodies)
  simp [Shape.lowerParts, hnone]

/-! ## A well-scoped expression lowers to a closed one -/

theorem wrapLocalBindings_cons (binding : String × AnfExpr) (bindings : List (String × AnfExpr))
    (body : AnfExpr) : wrapLocalBindings (binding :: bindings) body =
      .letIn binding.1 binding.2 (wrapLocalBindings bindings body) := by
  simp [wrapLocalBindings]

/-- What is free under lets is free in a value or the body. -/
theorem mem_freeVars_wrap (hmem : x ∈ (wrapLocalBindings bindings body).freeVars) :
    (∃ binding ∈ bindings, x ∈ binding.2.freeVars) ∨
      x ∈ body.freeVars ∧ ∀ binding ∈ bindings, binding.1 ≠ x := by
  induction bindings with
  | nil => exact .inr ⟨hmem, by simp⟩
  | cons binding bindings ih =>
    rw [wrapLocalBindings_cons, AnfExpr.freeVars, mem_append, mem_without, mem_singleton] at hmem
    rcases hmem with hvalue | ⟨hrest, hne⟩
    · exact .inl ⟨binding, .head _, hvalue⟩
    · rcases ih hrest with ⟨later, hlater, hvalue⟩ | ⟨hbody, hfree⟩
      · exact .inl ⟨later, .tail _ hlater, hvalue⟩
      · exact .inr ⟨hbody, forall_mem_cons.2 ⟨fun heq => hne heq.symm, hfree⟩⟩

/-- The names of operands are the variables among them and the temporaries
bound for the others. -/
theorem mem_atomizeAll (hmem : x ∈ (atomizeAll path es).value n) :
    .var x ∈ es ∨ ∃ binding ∈ (atomizeAll path es).emitted n, binding.1 = x := by
  induction es generalizing n with
  | nil => cases hmem
  | cons e es ih =>
    rw [atomizeAll] at hmem ⊢
    simp only [value_bind, value_pure, mem_cons] at hmem
    simp only [emitted_bind, emitted_pure, append_nil, mem_append]
    rcases hmem with rfl | hmem
    · cases he : e.isVar with
      | true =>
        obtain ⟨name, rfl⟩ := eq_var_of_isVar he
        exact .inl (.head _)
      | false =>
        obtain ⟨hvalue, -, hemitted⟩ := atomize_of_not_var he (lowerCoreExpr path e) n
        exact .inr ⟨_, .inl (hemitted ▸ mem_append_right _ (.head _)), hvalue.symm⟩
    · rcases ih hmem with hvar | ⟨binding, hbinding, rfl⟩
      · exact .inl (.tail _ hvar)
      · exact .inr ⟨binding, .inr hbinding, rfl⟩

/-- On the local path a temporary drawn on the way is bound for an
operand, to its lowering. -/
theorem mem_emitted_atomizeAll (hes : ∀ e ∈ es, Surface e)
    (hmem : binding ∈ (atomizeAll .localPath es).emitted n) :
    ∃ e ∈ es, ∃ m k, k < (atomizeAll .localPath es).counter n ∧
      binding = (temporary k, (lowerCoreExpr .localPath e).value m) := by
  induction es generalizing n with
  | nil => cases hmem
  | cons e es ih =>
    rw [forall_mem_cons] at hes
    rw [atomizeAll] at hmem ⊢
    simp only [emitted_bind, emitted_pure, append_nil, mem_append] at hmem
    rcases hmem with hmem | hmem
    · cases he : e.isVar with
      | true =>
        obtain ⟨name, rfl⟩ := eq_var_of_isVar he
        cases hmem
      | false =>
        obtain ⟨-, hcounter, hemitted⟩ := atomize_of_not_var he (lowerCoreExpr .localPath e) n
        rw [hemitted, emitted_localPath hes.1] at hmem
        have hle := @advances_operands es .localPath hes.2
          ((lowerCoreExpr .localPath e).counter n + 1)
        refine ⟨e, .head _, n, _, ?_, mem_singleton.1 hmem⟩
        simp only [counter_bind, counter_pure, hcounter]
        omega
    · obtain ⟨later, hlater, m, k, hk, hvalue⟩ := ih hes.2 hmem
      exact ⟨later, .tail _ hlater, m, k, hk, hvalue⟩

theorem emitted_atomizeAll_of_vars (hes : ∀ e ∈ es, e.isVar = true) (n : Nat) :
    (atomizeAll path es).emitted n = [] := by
  induction es generalizing n with
  | nil => rfl
  | cons e es ih =>
    rw [forall_mem_cons] at hes
    obtain ⟨name, rfl⟩ := eq_var_of_isVar hes.1
    simp [atomizeAll, atomize_var, ih hes.2]

/-- The lowered bodies are lowerings of the bodies. -/
theorem mem_zip_lowerAll {pair : (List String × CoreExpr) × AnfExpr}
    (hmem : pair ∈ bodies.zip ((lowerAll path (bodies.map (·.2))).value n)) :
    pair.1 ∈ bodies ∧ ∃ m, pair.2 = (lowerCoreExpr path pair.1.2).value m := by
  induction bodies generalizing n with
  | nil => cases hmem
  | cons body bodies ih =>
    rw [map_cons, lowerAll] at hmem
    simp only [value_bind, value_pure, zip_cons_cons, mem_cons] at hmem
    rcases hmem with rfl | hmem
    · exact ⟨.head _, n, rfl⟩
    · exact ⟨.tail _ (ih hmem).1, (ih hmem).2⟩

theorem mem_freeVars_desugarWhile {condTmp bodyTmp : String} {cond : AnfExpr} :
    x ∈ (desugarWhile condTmp cond bodyTmp body).freeVars ↔
      x ∈ cond.freeVars ∨ x ∈ body.freeVars ∧ x ≠ condTmp := by
  simp only [desugarWhile, AnfExpr.freeVars, AnfExpr.freeVarsAll, mem_append, mem_without,
    mem_cons, not_mem_nil, or_false, false_and]
  tauto

/-- The value of a lowered `while`: nothing is emitted on the way, so
nothing is wrapped around it. -/
theorem value_whileLoop {cond body : CoreExpr} (hcond : Surface cond) (hbody : Surface body)
    (termination : Option LoopTermination) (n : Nat) :
    (lowerCoreExpr path (.whileLoop cond body termination)).value n =
      let afterCond := (lowerCoreExpr .localPath cond).counter n
      let afterBody := (lowerCoreExpr .localPath body).counter (afterCond + 1)
      desugarWhile (temporary afterCond) ((lowerCoreExpr .localPath cond).value n)
        (temporary afterBody) ((lowerCoreExpr .localPath body).value (afterCond + 1)) := by
  rw [lowerCoreExpr, operator]
  simp [emitted_localPath hcond, emitted_localPath hbody, wrapLocalBindings]

/-- What a well-scoped expression reads after lowering it read before. -/
theorem freeVars_lowered (he : Surface e) :
    ∀ path n, wellScoped path e = true →
      ∀ x ∈ ((lowerCoreExpr path e).value n).freeVars, x ∈ e.freeVars := by
  induction he with
  | var name => exact fun _ _ _ _ hx => hx
  | shaped hshape operands bodies ihOperands ihBodies =>
    rename_i e s
    intro path n hscoped x hx
    rw [wellScoped_shape hshape, Bool.and_eq_true, all_eq_true, all_eq_true] at hscoped
    rw [lowerCoreExpr_shape hshape] at hx
    rw [mem_freeVars_shape hshape]
    generalize s.path path = path at hscoped hx
    obtain ⟨hoperands, hbodies⟩ := hscoped
    have hnames := length_atomizeAll path s.operands n
    have hlength := length_lowerAll path (s.bodies.map (·.2))
      ((atomizeAll path s.operands).counter n)
    rw [length_map] at hlength
    -- what the rebuilt form reads, its own temporaries apart
    have hparts : x ∈ ((s.lowerParts path).value n).freeVars →
        (∀ binding ∈ (atomizeAll path s.operands).emitted n, binding.1 ≠ x) →
        (∃ operand ∈ s.operands, x ∈ operand.freeVars) ∨
          ∃ body ∈ s.bodies, x ∈ body.2.freeVars ∧ x ∉ body.1 := by
      intro hx hnew
      rcases (mem_freeVars_rebuild hshape hnames hlength).1 hx with hname | ⟨pair, hpair,
        hfree, hbound⟩
      · rcases mem_atomizeAll hname with hvar | ⟨binding, hbinding, heq⟩
        · exact .inl ⟨_, hvar, mem_singleton_self x⟩
        · exact absurd heq (hnew binding hbinding)
      · obtain ⟨hbody, m, hvalue⟩ := mem_zip_lowerAll hpair
        rw [hvalue] at hfree
        exact .inr ⟨pair.1, hbody, ihBodies _ hbody path m (hbodies _ hbody) x hfree, hbound⟩
    cases path with
    | localPath =>
      rw [form, value_collect, emitted_lowerParts_localPath bodies] at hx
      rcases mem_freeVars_wrap hx with ⟨binding, hbinding, hvalue⟩ | ⟨hrebuilt, hnew⟩
      · obtain ⟨operand, hoperand, m, k, -, rfl⟩ := mem_emitted_atomizeAll operands hbinding
        exact .inl ⟨operand, hoperand,
          ihOperands operand hoperand .localPath m (hoperands operand hoperand) x hvalue⟩
      · exact hparts hrebuilt hnew
    | globalPath =>
      have hvars : ∀ operand ∈ s.operands, operand.isVar = true := hoperands
      exact hparts hx (by simp [emitted_atomizeAll_of_vars hvars])
  | whileLoop termination hcond hbody ihCond ihBody =>
    intro path n hscoped x hx
    rw [value_whileLoop hcond hbody, mem_freeVars_desugarWhile] at hx
    rw [wellScoped, Bool.and_eq_true] at hscoped
    rw [CoreExpr.freeVars, mem_append]
    rcases hx with hx | ⟨hx, -⟩
    · exact .inl (ihCond _ _ hscoped.1 x hx)
    · exact .inr (ihBody _ _ hscoped.2 x hx)
  | lambda params hbody ihBody =>
    intro path n hscoped x hx
    rw [lowerCoreExpr, value_fallThrough] at hx
    simp only [value_bind, value_pure, AnfExpr.freeVars, mem_append] at hx
    rw [CoreExpr.freeVars, mem_without]
    have hfree := mem_without.1 (hx.elim mem_lambdaCaptures id)
    exact ⟨ihBody .globalPath n hscoped x hfree.1, hfree.2⟩
  | returnWith hvalue ihValue =>
    intro path n hscoped x hx
    obtain ⟨name, rfl⟩ := eq_var_of_isVar hscoped
    rw [lowerCoreExpr, value_fallThrough] at hx
    exact hx

/-! ## An expression that is not well scoped leaks a temporary -/

/-- Two temporaries never share a name. -/
theorem temporary_injective : Function.Injective temporary := fun _ _ h =>
  Nat.repr_inj.1 ((String.append_right_inj _).1 h)

open Filter in
/-- All but finitely many temporaries are missing from a list of names. -/
theorem eventually_temporary_notMem (names : List String) :
    ∀ᶠ n in atTop, ∀ k, n ≤ k → temporary k ∉ names := by
  refine eventually_forall_ge_atTop.2 ?_
  have hfinite : {k | temporary k ∈ names}.Finite :=
    (finite_toSet names).preimage temporary_injective.injOn
  rw [← Nat.cofinite_eq_atTop]
  exact hfinite.eventually_cofinite_notMem

/-- A temporary drawn by the lowering is free in its result. -/
def Leaks (path : Path) (e : CoreExpr) (n : Nat) : Prop :=
  ∃ k, n ≤ k ∧ k < (lowerCoreExpr path e).counter n ∧
    temporary k ∈ ((lowerCoreExpr path e).value n).freeVars

/-- From counter `n` on, the expression leaks whenever it is not well scoped. -/
def LeaksFrom (n : Nat) (e : CoreExpr) : Prop :=
  ∀ path m, n ≤ m → wellScoped path e = false → Leaks path e m

theorem mem_freeVars_wrap_of_body (hbody : x ∈ body.freeVars)
    (hnew : ∀ binding ∈ bindings, binding.1 ≠ x) :
    x ∈ (wrapLocalBindings bindings body).freeVars := by
  induction bindings with
  | nil => exact hbody
  | cons binding bindings ih =>
    rw [forall_mem_cons] at hnew
    rw [wrapLocalBindings_cons, AnfExpr.freeVars, mem_append, mem_without, mem_singleton]
    exact .inr ⟨ih hnew.2, fun heq => hnew.1 heq.symm⟩

theorem mem_freeVars_wrap_of_value {earlier later : List (String × AnfExpr)}
    (hvalue : x ∈ binding.2.freeVars) (hnew : ∀ binding ∈ earlier, binding.1 ≠ x) :
    x ∈ (wrapLocalBindings (earlier ++ binding :: later) body).freeVars := by
  have hwrap : wrapLocalBindings (earlier ++ binding :: later) body =
      wrapLocalBindings earlier (wrapLocalBindings (binding :: later) body) := by
    simp [wrapLocalBindings]
  rw [hwrap, wrapLocalBindings_cons]
  exact mem_freeVars_wrap_of_body (mem_append_left _ hvalue) hnew

theorem wellScoped_of_isVar (he : e.isVar = true) : wellScoped path e = true := by
  obtain ⟨name, rfl⟩ := eq_var_of_isVar he
  rfl

/-- An operand that leaks does so inside the temporary bound for it, and no
temporary bound before is the one that leaks. -/
theorem leak_of_operand (hes : ∀ e ∈ es, Surface e) (hleaks : ∀ e ∈ es, LeaksFrom n e) (he : e ∈ es)
    (hscoped : wellScoped .localPath e = false) :
    ∃ k earlier binding later,
      (atomizeAll .localPath es).emitted n = earlier ++ binding :: later ∧
      n ≤ k ∧ k < (atomizeAll .localPath es).counter n ∧
      temporary k ∈ binding.2.freeVars ∧ ∀ binding ∈ earlier, binding.1 ≠ temporary k := by
  induction es generalizing n with
  | nil => cases he
  | cons first es ih =>
    rw [forall_mem_cons] at hes hleaks
    have hadvance := @advances_operands es .localPath hes.2
    have hfirst : Advances (lowerCoreExpr .localPath first) := advances_lowerCoreExpr hes.1 _
    rw [atomizeAll]
    simp only [emitted_bind, emitted_pure, append_nil, counter_bind,
      counter_pure]
    by_cases hhead : wellScoped .localPath first = false
    · -- the first operand leaks; nothing is bound before it
      have hvar : first.isVar = false := by
        cases hvar : first.isVar with
        | false => rfl
        | true => exact absurd (wellScoped_of_isVar hvar) (hhead.symm ▸ Bool.false_ne_true)
      obtain ⟨-, hcounter, hemitted⟩ := atomize_of_not_var hvar (lowerCoreExpr .localPath first) n
      obtain ⟨k, hn, hk, hfree⟩ := hleaks.1 .localPath n (Nat.le_refl n) hhead
      rw [hemitted, emitted_localPath hes.1, hcounter]
      have hle := hadvance ((lowerCoreExpr .localPath first).counter n + 1)
      exact ⟨k, [], _, _, rfl, hn, by omega, hfree, fun _ h => by cases h⟩
    · have he : e ∈ es := (mem_cons.1 he).resolve_left (fun heq => hhead (heq ▸ hscoped))
      have hstart : n ≤ (atomize first (lowerCoreExpr .localPath first)).counter n :=
        hfirst.atomize n
      obtain ⟨k, earlier, binding, later, hsplit, hn, hk, hfree, hnew⟩ :=
        ih hes.2 (fun e he path m hm => hleaks.2 e he path m (Nat.le_trans hstart hm)) he
      refine ⟨k, (atomize first (lowerCoreExpr .localPath first)).emitted n ++ earlier,
        binding, later,
        by rw [hsplit, append_assoc], by omega, hk, hfree, fun b hb => ?_⟩
      rcases mem_append.1 hb with hb | hb
      · -- bound for the first operand, so drawn before
        have hmem : b ∈ (atomizeAll .localPath [first]).emitted n := by simpa [atomizeAll] using hb
        obtain ⟨_, -, _, j, hj, rfl⟩ := mem_emitted_atomizeAll (by simpa using hes.1) hmem
        have hj' : j < (atomize first (lowerCoreExpr .localPath first)).counter n := by
          simpa [atomizeAll] using hj
        exact fun heq => by have := temporary_injective heq; omega
      · exact hnew b hb

/-- An operand that is not a variable is named by a temporary. -/
theorem temporary_of_operand (hes : ∀ e ∈ es, Surface e) (he : e ∈ es) (hvar : e.isVar = false) :
    ∃ k, n ≤ k ∧ k < (atomizeAll path es).counter n ∧
      temporary k ∈ (atomizeAll path es).value n := by
  induction es generalizing n with
  | nil => cases he
  | cons first es ih =>
    rw [forall_mem_cons] at hes
    have hadvance := @advances_operands es path hes.2
    have hfirst : Advances (lowerCoreExpr path first) := advances_lowerCoreExpr hes.1 _
    rw [atomizeAll]
    simp only [value_bind, value_pure, counter_bind, counter_pure]
    rcases mem_cons.1 he with rfl | he
    · obtain ⟨hvalue, hcounter, -⟩ := atomize_of_not_var hvar (lowerCoreExpr path e) n
      have hle := hadvance ((lowerCoreExpr path e).counter n + 1)
      refine ⟨_, hfirst n, ?_, hvalue ▸ (.head _)⟩
      rw [hcounter]
      omega
    · obtain ⟨k, hn, hk, hmem⟩ :=
        ih hes.2 (n := (atomize first (lowerCoreExpr path first)).counter n) he
      exact ⟨k, Nat.le_trans (hfirst.atomize n) hn, hk, .tail _ hmem⟩

/-- A body that leaks does so among the lowered bodies. -/
theorem leak_of_body (hsurface : ∀ body ∈ bodies, Surface body.2)
    (hleaks : ∀ body ∈ bodies, LeaksFrom n body.2) {body : List String × CoreExpr}
    (hbody : body ∈ bodies) (hscoped : wellScoped path body.2 = false) :
    ∃ k, n ≤ k ∧ k < (lowerAll path (bodies.map (·.2))).counter n ∧
      ∃ pair ∈ bodies.zip ((lowerAll path (bodies.map (·.2))).value n),
        temporary k ∈ pair.2.freeVars := by
  induction bodies generalizing n with
  | nil => cases hbody
  | cons first bodies ih =>
    rw [forall_mem_cons] at hsurface hleaks
    have hadvance : Advances (lowerAll path (bodies.map (·.2))) :=
      advances_lowerAll (forall_mem_map.2 fun b hb => advances_lowerCoreExpr (hsurface.2 b hb) _)
    have hfirst := advances_lowerCoreExpr hsurface.1 path n
    rw [map_cons, lowerAll]
    simp only [value_bind, value_pure, counter_bind, counter_pure,
      zip_cons_cons]
    by_cases hhead : wellScoped path first.2 = false
    · obtain ⟨k, hn, hk, hfree⟩ := hleaks.1 path n (Nat.le_refl n) hhead
      exact ⟨k, hn, Nat.lt_of_lt_of_le hk (hadvance _), _, .head _, hfree⟩
    · have hbody : body ∈ bodies :=
        (mem_cons.1 hbody).resolve_left (fun heq => hhead (heq ▸ hscoped))
      obtain ⟨k, hn, hk, pair, hpair, hfree⟩ :=
        ih hsurface.2 (fun b hb path m hm => hleaks.2 b hb path m (Nat.le_trans hfirst hm)) hbody
      exact ⟨k, Nat.le_trans hfirst hn, hk, pair, .tail _ hpair, hfree⟩

/-- A shape with a leaking part leaks: no name bound on the way is the one
that leaks, if the bodies bind no temporary from `n` on. -/
theorem leaks_of_shape (hshape : e.shape = some s)
    (operands : ∀ operand ∈ s.operands, Surface operand)
    (bodies : ∀ body ∈ s.bodies, Surface body.2)
    (hoperands : ∀ operand ∈ s.operands, LeaksFrom n operand)
    (hbodies : ∀ body ∈ s.bodies, LeaksFrom n body.2)
    (hbinders : ∀ body ∈ s.bodies, ∀ k, n ≤ k → temporary k ∉ body.1) : LeaksFrom n e := by
  intro path m hm hscoped
  rw [wellScoped_shape hshape] at hscoped
  rw [Leaks, lowerCoreExpr_shape hshape, counter_form]
  generalize s.path path = path at hscoped
  have hoperands' : ∀ operand ∈ s.operands, LeaksFrom m operand :=
    fun o ho path m' hm' => hoperands o ho path m' (Nat.le_trans hm hm')
  have hadvance := @advances_operands s.operands path operands
  have hadvanceBodies : Advances (lowerAll path (s.bodies.map (·.2))) :=
    advances_lowerAll (forall_mem_map.2 fun b hb => advances_lowerCoreExpr (bodies b hb) _)
  have hnames := length_atomizeAll path s.operands m
  have hlength := length_lowerAll path (s.bodies.map (·.2)) ((atomizeAll path s.operands).counter m)
  rw [length_map] at hlength
  have hcounter : (s.lowerParts path).counter m = (lowerAll path (s.bodies.map (·.2))).counter
      ((atomizeAll path s.operands).counter m) := rfl
  have hstart := hadvance m
  have hend := hadvanceBodies ((atomizeAll path s.operands).counter m)
  by_cases hall : s.bodies.all (fun body => wellScoped path body.2) = true
  · rw [hall, Bool.and_true, all_eq_false] at hscoped
    obtain ⟨operand, hoperand, hbad⟩ := hscoped
    cases path with
    | localPath =>
      obtain ⟨k, earlier, binding, later, hsplit, hk, hk', hfree, hnew⟩ :=
        leak_of_operand operands hoperands' hoperand (Bool.eq_false_iff.2 hbad)
      refine ⟨k, hk, by omega, ?_⟩
      have hemitted : (s.lowerParts .localPath).emitted m = earlier ++ binding ::
          (later ++ (lowerAll .localPath (s.bodies.map (·.2))).emitted
            ((atomizeAll .localPath s.operands).counter m)) := by
        simp [Shape.lowerParts, hsplit]
      rw [form, value_collect, hemitted]
      exact mem_freeVars_wrap_of_value hfree hnew
    | globalPath =>
      obtain ⟨k, hk, hk', hname⟩ :=
        temporary_of_operand operands hoperand (Bool.eq_false_iff.2 hbad)
      exact ⟨k, hk, by omega, (mem_freeVars_rebuild hshape hnames hlength).2 (.inl hname)⟩
  · obtain ⟨body, hbody, hbad⟩ := all_eq_false.1 (Bool.eq_false_iff.2 hall)
    have hlater : ∀ body ∈ s.bodies, LeaksFrom ((atomizeAll path s.operands).counter m) body.2 :=
      fun b hb path m' hm' => hbodies b hb path m' (by omega)
    obtain ⟨k, hk, hk', pair, hpair, hfree⟩ :=
      leak_of_body bodies hlater hbody (Bool.eq_false_iff.2 hbad)
    have hbound : temporary k ∉ pair.1.1 :=
      hbinders pair.1 (mem_zip_lowerAll hpair).1 k (by omega)
    have hrebuilt : temporary k ∈ ((s.lowerParts path).value m).freeVars :=
      (mem_freeVars_rebuild hshape hnames hlength).2 (.inr ⟨pair, hpair, hfree, hbound⟩)
    refine ⟨k, by omega, by omega, ?_⟩
    cases path with
    | localPath =>
      rw [form, value_collect, emitted_lowerParts_localPath bodies]
      refine mem_freeVars_wrap_of_body hrebuilt fun binding hbinding heq => ?_
      obtain ⟨_, -, _, j, hj, rfl⟩ := mem_emitted_atomizeAll operands hbinding
      have := temporary_injective heq
      omega
    | globalPath => exact hrebuilt

open Filter in
/-- Every surface expression leaks from some counter on, unless it is well
scoped: beyond the temporaries it uses as names of its own. -/
theorem eventually_leaksFrom (he : Surface e) : ∀ᶠ n in atTop, LeaksFrom n e := by
  induction he with
  | var _ => exact Eventually.of_forall fun _ _ _ _ h => nomatch h
  | shaped hshape operands bodies ihOperands ihBodies =>
    rename_i e s
    have hoperands : ∀ᶠ n in atTop, ∀ operand ∈ s.operands, LeaksFrom n operand :=
      (eventually_all_finite (finite_toSet s.operands)).2 ihOperands
    have hbodies : ∀ᶠ n in atTop, ∀ body ∈ s.bodies, LeaksFrom n body.2 :=
      (eventually_all_finite (finite_toSet s.bodies)).2 ihBodies
    have hbinders : ∀ᶠ n in atTop, ∀ body ∈ s.bodies, ∀ k, n ≤ k → temporary k ∉ body.1 :=
      (eventually_all_finite (finite_toSet s.bodies)).2 fun body _ =>
        eventually_temporary_notMem body.1
    filter_upwards [hoperands, hbodies, hbinders] with n hoperands hbodies hbinders
    exact leaks_of_shape hshape operands bodies hoperands hbodies hbinders
  | whileLoop termination hcond hbody ihCond ihBody =>
    rename_i cond body
    filter_upwards [ihCond, ihBody] with n ihCond ihBody
    intro path m hm hscoped
    have hstart := advances_lowerCoreExpr hcond .localPath m
    have hend := advances_lowerCoreExpr hbody .localPath
      ((lowerCoreExpr .localPath cond).counter m + 1)
    have hcounter : (lowerCoreExpr path (.whileLoop cond body termination)).counter m =
        (lowerCoreExpr .localPath body).counter ((lowerCoreExpr .localPath cond).counter m + 1) +
          1 := by
      rw [lowerCoreExpr]
      rfl
    rw [Leaks, hcounter]
    simp only [value_whileLoop hcond hbody, mem_freeVars_desugarWhile]
    rw [wellScoped, Bool.and_eq_false_iff] at hscoped
    rcases hscoped with hbad | hbad
    · obtain ⟨k, hk, hk', hfree⟩ := ihCond .localPath m hm hbad
      exact ⟨k, hk, by omega, .inl hfree⟩
    · -- the temporary of the condition was drawn before those of the body
      obtain ⟨k, hk, hk', hfree⟩ :=
        ihBody .localPath ((lowerCoreExpr .localPath cond).counter m + 1) (by omega) hbad
      refine ⟨k, by omega, by omega, .inr ⟨hfree, fun heq => ?_⟩⟩
      have := temporary_injective heq
      omega
  | lambda params hbody ihBody =>
    filter_upwards [ihBody, eventually_temporary_notMem params] with n ihBody hparams
    intro path m hm hscoped
    obtain ⟨k, hk, hk', hfree⟩ := ihBody .globalPath m hm hscoped
    refine ⟨k, hk, ?_, ?_⟩
    · rw [lowerCoreExpr, counter_fallThrough]
      exact hk'
    · rw [lowerCoreExpr, value_fallThrough]
      simp only [value_bind, value_pure, AnfExpr.freeVars, mem_append, mem_without]
      exact .inr ⟨hfree, hparams k (by omega)⟩
  | returnWith hvalue ihValue =>
    rename_i value
    refine Eventually.of_forall fun n path m hm hscoped => ?_
    obtain ⟨hname, hcounter, -⟩ := atomize_of_not_var hscoped (lowerCoreExpr .globalPath value) m
    refine ⟨_, advances_lowerCoreExpr hvalue .globalPath m, ?_, ?_⟩
    · rw [lowerCoreExpr, counter_fallThrough]
      show _ < (atomize value (lowerCoreExpr .globalPath value)).counter m
      omega
    · rw [lowerCoreExpr, value_fallThrough]
      show _ ∈ [(atomize value (lowerCoreExpr .globalPath value)).value m]
      rw [hname]
      exact mem_singleton_self _

/-! ## The bindings of a node -/

/-- Every free variable of a produced binding is a free variable of the
body or the name of another produced binding. -/
def NoDanglingName (body : CoreExpr) (bindings : List AnfBinding) : Prop :=
  ∀ earlier binding later, bindings = earlier ++ binding :: later →
    ∀ x ∈ binding.expr.freeVars, x ∈ body.freeVars ∨ ∃ other ∈ earlier ++ later, other.name = x

/-- The one binding of a node, so that there is no other to name. -/
theorem noDanglingName_iff {node : CoreNode} (hexpr : node.expr = some e) (fresh : Nat) :
    NoDanglingName e (mapCoreNodeToAnf node fresh).1 ↔
      ∀ x ∈ ((lowerCoreExpr .localPath e).value fresh).freeVars, x ∈ e.freeVars := by
  simp only [mapCoreNodeToAnf, hexpr]
  constructor
  · intro h x hx
    rcases h [] _ [] rfl x hx with hfree | ⟨other, hother, -⟩
    · exact hfree
    · cases hother
  · intro h earlier binding later hsplit x hx
    obtain ⟨rfl, rfl, rfl⟩ : earlier = [] ∧ binding = _ ∧ later = [] := by
      cases earlier with
      | nil =>
        obtain ⟨hbinding, hlater⟩ := List.cons.inj hsplit
        exact ⟨rfl, hbinding.symm, hlater.symm⟩
      | cons first rest => simp at hsplit
    exact .inl (h x hx)

/-- Lowering a parsed body leaves no dangling name, for every node with
that body and every state of the counter, exactly when the body is well
scoped. -/
theorem lowering_closed_iff_wellScoped (std : RustStd) (input : String) (e : CoreExpr)
    (hparse : parseExpr std input = .ok e) :
    (∀ node : CoreNode, node.expr = some e →
      ∀ fresh, NoDanglingName e (mapCoreNodeToAnf node fresh).1) ↔
    wellScoped .localPath e = true := by
  have he : Surface e := (parseExpr_ensures std input).of_eq_ok hparse
  constructor
  · intro hclosed
    by_contra hscoped
    obtain ⟨n, hleaks, hnames⟩ :=
      ((eventually_leaksFrom he).and (eventually_temporary_notMem e.freeVars)).exists
    obtain ⟨k, hk, -, hfree⟩ := hleaks .localPath n (Nat.le_refl n) (Bool.eq_false_iff.2 hscoped)
    have hbody := (noDanglingName_iff rfl n).1
      (hclosed ⟨⟨0⟩, .function, "", none, some e⟩ rfl n) (temporary k) hfree
    exact hnames k hk hbody
  · intro hscoped node hexpr fresh
    exact (noDanglingName_iff hexpr fresh).2 (freeVars_lowered he .localPath fresh hscoped)

/-- `add(f(x), g())` is closed: its operands are bound around the operator. -/
theorem lowering_closed_add :
    ∃ e, parseExpr .trivial "add(f(x), g())" = .ok e ∧
      ∀ node : CoreNode, node.expr = some e →
        ∀ fresh, NoDanglingName e (mapCoreNodeToAnf node fresh).1 := by
  have hscoped : (parseExpr .trivial "add(f(x), g())").toOption.map (wellScoped .localPath) =
      some true := by decide +kernel
  cases hparse : parseExpr .trivial "add(f(x), g())" with
  | error failure => exact absurd (hparse ▸ hscoped) nofun
  | ok e =>
    rw [hparse] at hscoped
    exact ⟨e, rfl, (lowering_closed_iff_wellScoped _ _ e hparse).2 (Option.some.inj hscoped)⟩

/-- `return(1)` returns the temporary `anf_0`, which nothing binds. -/
theorem return_literal_dangles :
    ∃ e, parseExpr .trivial "return(1)" = .ok e ∧
      ¬ NoDanglingName e (mapCoreNodeToAnf ⟨⟨0⟩, .function, "f", none, some e⟩ 0).1 := by
  have hnames : ((parseExpr .trivial "return(1)").toOption.map fun e =>
      (e.freeVars, ((lowerCoreExpr .localPath e).value 0).freeVars)) = some ([], ["anf_0"]) := by
    decide +kernel
  cases hparse : parseExpr .trivial "return(1)" with
  | error failure => exact absurd (hparse ▸ hnames) nofun
  | ok e =>
    rw [hparse] at hnames
    obtain ⟨hsource, hlowered⟩ := Prod.mk.inj (Option.some.inj hnames)
    refine ⟨e, rfl, fun hclosed => ?_⟩
    have hmem := (noDanglingName_iff rfl 0).1 hclosed "anf_0" (by rw [hlowered]; exact .head _)
    rw [hsource] at hmem
    cases hmem

end Ail.Compiler
