import Ail.Compiler.LowerScope
import Ail.Compiler.Optimize
import Ail.Compiler.WasmAbi

/-!
# The names a body of calls uses

Which parameters does the function emitted for a body have? The walk that
decides it runs over the lowered and optimized body. For bodies made of
variables, literals, calls, operators, effects, branches and lets the
answer can be read off the body itself: `callUses` lists its variables in
the order of evaluation, the operands that are computed before the
variables beside them. It gives no answer where the optimizer may drop a
use: a branch on a condition without variables, a let that is not used.

`meets_lowered`: the walk meets the names of `callUses`, as often as they
stand there and in this order.
-/

namespace Ail.Compiler

open Ail.Core Lib List AnfExpr

/-! ## Names that are met are used -/

/-- What the walk meets is used in the sense of the optimizer. -/
theorem usesVar_of_mem {x : String} (e : AnfExpr) (hmet : x ∈ e.captureUses) :
    usesVar x e = true := by
  induction e using childInduction with
  | step e ih =>
    cases e with
    | letIn name value body =>
      have hvalue := ih value (by simp)
      have hbody := ih body (by simp)
      simp only [captureUses, mem_append, mem_without, mem_singleton] at hmet
      simp only [usesVar, Bool.or_eq_true, Bool.and_eq_true, bne_iff_ne]
      tauto
    | ifElse cond thenBranch elseBranch =>
      have hthen := ih thenBranch (by simp)
      have helse := ih elseBranch (by simp)
      simp only [captureUses, mem_cons, mem_append] at hmet
      simp only [usesVar, Bool.or_eq_true, beq_iff_eq]
      tauto
    | lambda params captures body =>
      have hbody := ih body (by simp)
      cases captures with
      | nil =>
        simp only [captureUses, isEmpty_nil, if_true, mem_without] at hmet
        simp only [usesVar, Bool.or_eq_true, Bool.and_eq_true, Bool.not_eq_true', any_beq',
          contains_eq_mem, decide_eq_false_iff_not]
        tauto
      | cons capture captures =>
        simp only [usesVar, Bool.or_eq_true, any_beq', contains_eq_mem, decide_eq_true_eq]
        exact .inl hmet
    | matchOn scrutinee arms =>
      simp only [captureUses, captureUsesArms_eq, mem_flatMap, mem_without] at hmet
      simp only [usesVar, usesVarArms_eq, Bool.or_eq_true, any_eq_true]
      obtain ⟨arm, harm, hmet, -⟩ := hmet
      exact .inr ⟨arm, harm, ih arm.2 (mem_map_of_mem harm) hmet⟩
    | recordNew fields =>
      simp only [captureUses, captureUsesFields_eq, mem_flatMap] at hmet
      simp only [usesVar, usesVarArms_eq, any_eq_true]
      obtain ⟨field, hfield, hmet⟩ := hmet
      exact ⟨field, hfield, ih field.2 (mem_map_of_mem hfield) hmet⟩
    | variantNew tag payload =>
      cases payload with
      | none => cases hmet
      | some e => exact ih e (by simp) hmet
    | seq exprs | tupleNew exprs | listNew exprs =>
      simp only [captureUses, captureUsesAll_eq, mem_flatMap] at hmet
      simp only [usesVar, usesVarAll_eq, any_eq_true]
      obtain ⟨e, he, hmet⟩ := hmet
      exact ⟨e, he, ih e he hmet⟩
    | returnWith e | loop e | breakWith e => exact ih e (by simp) hmet
    | shortCircuitAnd _ e | shortCircuitOr _ e | fieldUpdate _ _ e =>
      simp [usesVar, ih e (by simp) hmet]
    | whileLoop cond e =>
      have hbody := ih e (by simp)
      simp only [captureUses, mem_cons] at hmet
      simp only [usesVar, Bool.or_eq_true, beq_iff_eq]
      tauto
    | var name => simpa [usesVar] using (mem_singleton.1 hmet).symm
    | call _ args | effectCall _ _ args =>
      simp only [usesVar, any_beq', contains_eq_mem, decide_eq_true_eq]
      exact hmet
    | _ => cases hmet

/-! ## Reading the uses off a body -/

/-- The name may be one of the lowering's own. -/
def isSynthetic (name : String) : Bool := "anf_".toList <+: name.toList

/-- What an operand adds: the names its value uses if it is computed, its
own name if it is a variable. -/
def operandUses (operand : CoreExpr) (uses : Option (List String)) :
    Option (List String × List String) :=
  uses.map fun uses => if operand.isVar then ([], uses) else (uses, [])

def joinUses (first rest : Option (List String × List String)) :
    Option (List String × List String) := do
  let (computed, vars) ← first
  let (computed', vars') ← rest
  pure (computed ++ computed', vars ++ vars')

mutual

/-- The variables of a body in the order of evaluation, for the bodies that
keep all of them. -/
def callUses : CoreExpr → Option (List String)
  | .literal _ => some []
  | .var name => if isSynthetic name then none else some [name]
  | .call _ args | .effectCall _ _ args => (argUses args).map fun uses => uses.1 ++ uses.2
  | .not operand => (joinUses (operandUses operand (callUses operand)) (some ([], []))).map
      fun uses => uses.1 ++ uses.2
  | .binary _ left right => (joinUses (operandUses left (callUses left))
      (joinUses (operandUses right (callUses right)) (some ([], [])))).map
        fun uses => uses.1 ++ uses.2
  | .ifElse cond then_ else_ => do
    let cond ← callUses cond
    let then_ ← callUses then_
    let else_ ← callUses else_
    if cond = [] then none else some (cond ++ (then_ ++ else_))
  | .letIn name value body => do
    let value ← callUses value
    let body ← callUses body
    if value = [] ∨ name ∉ body then none else some (value ++ without body [name])
  | _ => none

/-- The names the computed operands use, and the operands that are
variables. -/
def argUses : List CoreExpr → Option (List String × List String)
  | [] => some ([], [])
  | e :: es => joinUses (operandUses e (callUses e)) (argUses es)

end

variable {e : CoreExpr} {es : List CoreExpr} {uses computed vars : List String} {x : String}
  {known : Known} {value body : AnfExpr}

/-- Whatever literals are known for other names, the walk over the
optimized expression meets these. -/
def Meets (e : AnfExpr) (uses : List String) : Prop :=
  ∀ known : Known, (∀ x ∈ uses, known x = none) →
    (optimized known e).captureUses = uses ∧ lambdaBodyParams (optimized known e) = []

/-- The literals known inside a chain of lets. -/
def Known.afterLets (known : Known) (bindings : List (String × AnfExpr)) : Known :=
  bindings.foldl (fun known binding => known.afterLet binding.1 binding.2) known

variable {bindings : List (String × AnfExpr)} {usess : List (List String)} {name : String}

theorem Known.afterLets_of_notMem (hx : x ∉ bindings.map (·.1)) :
    known.afterLets bindings x = known x := by
  induction bindings generalizing known with
  | nil => rfl
  | cons binding bindings ih =>
    rw [map_cons, mem_cons, not_or] at hx
    exact (ih hx.2).trans (if_neg hx.1)

/-- A value that meets a name is not a literal. -/
theorem Meets.literal?_eq_none (hvalue : Meets value uses) (hknown : ∀ x ∈ uses, known x = none)
    (hne : uses ≠ []) : literal? (optimized known value) = none := by
  have hmet := (hvalue known hknown).1
  cases hoptimized : optimized known value with
  | literal _ =>
    rw [hoptimized] at hmet
    exact absurd hmet.symm hne
  | _ => rfl

/-- A let whose name is used stays. -/
theorem removesLet_eq_false
    (huses : usesVar name (optimized (known.afterLet name value) body) = true) :
    removesLet known name value body = false := by
  rw [removesLet, huses, Bool.not_true, Bool.and_false]

/-- A let whose value and name are met. -/
theorem Meets.letIn {uses' : List String} (hvalue : Meets value uses) (hne : uses ≠ [])
    (hbody : Meets body uses') (hname : name ∈ uses') :
    Meets (.letIn name value body) (uses ++ without uses' [name]) := by
  intro known hknown
  rw [forall_mem_append] at hknown
  have hafter : ∀ x ∈ uses', known.afterLet name value x = none := by
    intro x hx
    by_cases heq : x = name
    · exact (if_pos heq).trans (hvalue.literal?_eq_none hknown.1 hne)
    · exact (if_neg heq).trans (hknown.2 x (mem_without.2 ⟨hx, by simpa using heq⟩))
  have hmet := (hbody _ hafter).1
  have hkept := removesLet_eq_false (usesVar_of_mem _ (hmet.symm ▸ hname))
  rw [optimized_letIn, hkept]
  exact ⟨by simp [captureUses, (hvalue known hknown.1).1, hmet], rfl⟩

/-- A branch on a name that is not known. -/
theorem Meets.ifElse {cond : String} {thenBranch elseBranch : AnfExpr} {uses' : List String}
    (hthen : Meets thenBranch uses) (helse : Meets elseBranch uses') :
    Meets (.ifElse cond thenBranch elseBranch) (cond :: (uses ++ uses')) := by
  intro known hknown
  rw [forall_mem_cons, forall_mem_append] at hknown
  rw [optimized_ifElse, hknown.1]
  exact ⟨by simp [decided, captureUses, (hthen known hknown.2.1).1, (helse known hknown.2.2).1],
    rfl⟩

theorem without_eq_self {names bound : List String} (hapart : ∀ x ∈ names, x ∉ bound) :
    without names bound = names := by
  simpa [without] using hapart

theorem without_cons (names bound : List String) (name : String) :
    without names (name :: bound) = without (without names bound) [name] := by
  rw [without_without]
  exact filter_congr fun x _ => by simp [or_comm]

/-- Around a body that uses the names of a chain, or knows the literals they
stand for, the chain is kept as far as it meets anything. -/
theorem captureUses_wrap (hmeets : List.Forall₂ (fun binding uses => Meets binding.2 uses)
    bindings usess)
    (hnodup : (bindings.map (·.1)).Nodup) (hapart : ∀ x ∈ usess.flatten, x ∉ bindings.map (·.1))
    (hknown : ∀ x ∈ usess.flatten, known x = none) {inner : AnfExpr}
    (hinner : optimized (known.afterLets bindings) body = inner)
    (hbody : ∀ x ∈ bindings.map (·.1), usesVar x inner = true ∨ known.afterLets bindings x ≠ none)
    (hlambda : lambdaBodyParams inner = []) :
    (optimized known (wrapLocalBindings bindings body)).captureUses =
        usess.flatten ++ without inner.captureUses (bindings.map (·.1)) ∧
      lambdaBodyParams (optimized known (wrapLocalBindings bindings body)) = [] ∧
      ∀ x ∉ bindings.map (·.1), usesVar x inner = true →
        usesVar x (optimized known (wrapLocalBindings bindings body)) = true := by
  induction hmeets generalizing known with
  | nil => exact ⟨by simp [wrapLocalBindings, without, ← hinner, Known.afterLets], by
      rw [← hinner] at hlambda; exact hlambda,
        fun x _ huses => by rw [← hinner] at huses; exact huses⟩
  | @cons binding uses bindings usess hmeets _ ih =>
    rw [map_cons, nodup_cons] at hnodup
    rw [flatten_cons] at hapart hknown ⊢
    rw [forall_mem_append] at hapart hknown
    simp only [map_cons, mem_cons, not_or, forall_eq_or_imp] at hapart hbody ⊢
    have hrest : ∀ x ∈ usess.flatten, known.afterLet binding.1 binding.2 x = none := fun x hx =>
      (if_neg (hapart.2 x hx).1).trans (hknown.2 x hx)
    obtain ⟨hmet, hlambda, hkeeps⟩ :=
      ih hnodup.2 (fun x hx => (hapart.2 x hx).2) hrest hinner hbody.2
    rw [wrapLocalBindings_cons, optimized_letIn, without_cons]
    split_ifs with hremoves
    · -- a let that goes is unused, so its value is a known literal and meets nothing
      have hunused : usesVar binding.1 (optimized (known.afterLet binding.1 binding.2)
          (wrapLocalBindings bindings body)) = false := by
        simpa [removesLet] using (Bool.and_eq_true_iff.1 hremoves).2
      have huses : uses = [] := by
        by_contra hne
        rcases hbody.1 with huses | hafter
        · exact absurd (hkeeps _ hnodup.1 huses) (by simp [hunused])
        · refine hafter ((Known.afterLets_of_notMem hnodup.1).trans ((if_pos rfl).trans ?_))
          exact hmeets.literal?_eq_none hknown.1 hne
      have hnotMem : binding.1 ∉ without inner.captureUses (bindings.map (·.1)) := fun hmem =>
        absurd (usesVar_of_mem _ (hmet.symm ▸ mem_append_right _ hmem)) (by simp [hunused])
      have hself := without_eq_self fun x hx (heq : x ∈ [binding.1]) =>
        hnotMem (mem_singleton.1 heq ▸ hx)
      exact ⟨by rw [hmet, huses, nil_append, hself], hlambda, fun x hx huses => hkeeps x hx.2 huses⟩
    · refine ⟨?_, rfl, fun x hx huses => ?_⟩
      · rw [captureUses, (hmeets known hknown.1).1, hmet, without_append, append_assoc,
          without_eq_self fun x hx => by simpa using (hapart.2 x hx).1]
      · simp [usesVar, hkeeps x hx.2 huses, Ne.symm hx.1]

/-! ## Bodies of calls -/

/-- The names are no temporaries. -/
def Plain (names : List String) : Prop := ∀ x ∈ names, isSynthetic x = false

/-- Temporaries are the lowering's own. -/
theorem isSynthetic_temporary (k : Nat) : isSynthetic (temporary k) = true := by
  simp [isSynthetic, temporary]

/-- The names of operands and the lets around them: temporaries for the
computed operands, each with a value that meets its uses. -/
structure Atomized (n : Nat) (names : List String) (bindings : List (String × AnfExpr))
    (computed vars : List String) : Prop where
  nodup : (bindings.map (·.1)).Nodup
  temporaries : ∀ x ∈ bindings.map (·.1), ∃ k, n ≤ k ∧ x = temporary k
  named : ∀ x ∈ bindings.map (·.1), x ∈ names
  vars : without names (bindings.map (·.1)) = vars
  values : ∃ usess, List.Forall₂ (fun binding uses => Meets binding.2 uses) bindings usess ∧
    usess.flatten = computed

theorem Plain.notMem {n : Nat} (hplain : Plain uses)
    (htemps : ∀ x ∈ bindings.map (·.1), ∃ k, n ≤ k ∧ x = temporary k) :
    ∀ x ∈ uses, x ∉ bindings.map (·.1) := by
  intro x hx hmem
  obtain ⟨k, -, rfl⟩ := htemps x hmem
  exact Bool.false_ne_true ((hplain _ hx).symm.trans (isSynthetic_temporary k))

/-- A call or an effect whose operands are read off. -/
theorem Atomized.meets {n : Nat} {names : List String} {form : AnfExpr}
    (hatomized : Atomized n names bindings computed vars) (hplain : Plain (computed ++ vars))
    (hform : (∃ func, form = .call func names) ∨
      ∃ capability func, form = .effectCall capability func names) :
    Meets (wrapLocalBindings bindings form) (computed ++ vars) := by
  intro known hknown
  obtain ⟨hnodup, htemps, hnamed, hvars, usess, hvalues, rfl⟩ := hatomized
  have hapart := hplain.notMem htemps
  rw [forall_mem_append] at hknown hapart
  have hkept : ∀ x ∈ bindings.map (·.1), (names.any (· == x)) = true := fun x hx => by
    simpa using hnamed x hx
  suffices hinner : ∃ inner, optimized (known.afterLets bindings) form = inner ∧
      (∀ x ∈ bindings.map (·.1), usesVar x inner = true ∨ known.afterLets bindings x ≠ none) ∧
      without inner.captureUses (bindings.map (·.1)) = vars ∧ lambdaBodyParams inner = [] by
    obtain ⟨inner, hinner, huses, hmet, hlambda⟩ := hinner
    obtain ⟨hall, hnone, -⟩ :=
      captureUses_wrap hvalues hnodup hapart.1 hknown.1 hinner huses hlambda
    exact ⟨by rw [hall, hmet], hnone⟩
  rcases hform with ⟨func, rfl⟩ | ⟨capability, func, rfl⟩
  · rw [optimized_call]
    cases hfold : foldCall (known.afterLets bindings) func names with
    | none => exact ⟨_, rfl, fun x hx => .inl (hkept x hx), hvars, rfl⟩
    | some literal =>
      -- all operands are known, so none of them is a variable
      have hall := ne_none_of_foldCall hfold
      refine ⟨_, rfl, fun x hx => .inr (hall x (hnamed x hx)), ?_, rfl⟩
      refine (eq_nil_iff_forall_not_mem.2 fun x hx => ?_).symm
      have hx' := mem_without.1 (hvars ▸ hx)
      refine hall x hx'.1 ((Known.afterLets_of_notMem hx'.2).trans (hknown.2 x hx))
  · exact ⟨_, rfl, fun x hx => .inl (hkept x hx), hvars, rfl⟩

end Ail.Compiler
