import Ail.Compiler.CoreIr
import Ail.Lib.FirstUse

/-!
# A-normal form

The second lowering stage (`anf.rs`): every operand is an atomic name,
every intermediate result a binding. A lambda lists the variables it
captures beside its body; the list is what `collectFreeVars` reported
for the body when the lambda was built.
-/

namespace Ail.Compiler

open Ail.Core Lib List

inductive AnfExpr where
  | literal (value : LiteralValue)
  | var (name : String)
  | letIn (name : String) (value body : AnfExpr)
  | ifElse (cond : String) (thenBranch elseBranch : AnfExpr)
  | call (func : String) (args : List String)
  | fieldGet (record field : String)
  | returnWith (value : AnfExpr)
  | seq (exprs : List AnfExpr)
  | matchOn (scrutinee : String) (arms : List (String × AnfExpr))
  | lambda (params captures : List String) (body : AnfExpr)
  | recordNew (fields : List (String × AnfExpr))
  | fieldUpdate (record field : String) (value : AnfExpr)
  | tupleNew (elems : List AnfExpr)
  | variantNew (tag : String) (payload : Option AnfExpr)
  | listNew (elems : List AnfExpr)
  | loop (body : AnfExpr)
  | breakWith (value : AnfExpr)
  | continueLoop
  | whileLoop (cond : String) (body : AnfExpr)
  | shortCircuitAnd (left : String) (right : AnfExpr)
  | shortCircuitOr (left : String) (right : AnfExpr)
  | effectCall (capability func : String) (args : List String)
  | dispatch (handler method : String) (args : List String)
  | taskSpawn (func : String) (args : List String)
  | channelSend (channel value : String)
  | channelReceive (channel : String)
  | runtimeCheck (checkRef cond msg : String)
  | resourceAcquire (resource : String) (args : List String)
  | resourceRelease (handle : String)
  | taskAwait (task : String)
  | taskCancel (task : String)
  | taskGroup (body : AnfExpr)
  | channelNew (capacity : Option UInt64)
  | select (branches : List (String × String × AnfExpr))
  | timeout (duration : String) (body : AnfExpr)
  | cellNew (init : String)
  | cellGet (cell : String)
  | cellSet (cell value : String)
  | assume (predicate reason : String)
  | abort (message : String)
  | indexGet (collection index : String)
  | mapNew (entries : List (String × String))
  | setNew (elements : List String)
  | forEach (binding collection : String) (body : AnfExpr)
  | fold (init list func : String)
  | placeholder

/-- A named normalised expression, with the graph node it comes from. -/
structure AnfBinding where
  sourceRef : NodeRef
  name : String
  expr : AnfExpr

/-! ## Free variables -/

mutual

/-- The free variables of an expression; the captures a lambda lists are
uses of those names at the lambda. -/
def AnfExpr.freeVars : AnfExpr → List String
  | .var name => [name]
  | .letIn name value body => value.freeVars ++ without body.freeVars [name]
  | .ifElse cond thenBranch elseBranch => cond :: (thenBranch.freeVars ++ elseBranch.freeVars)
  | .call _ args | .effectCall _ _ args | .dispatch _ _ args | .taskSpawn _ args
  | .resourceAcquire _ args | .setNew args => args
  | .fieldGet name _ | .channelReceive name | .runtimeCheck _ name _ | .resourceRelease name
  | .taskAwait name | .taskCancel name | .cellNew name | .cellGet name => [name]
  | .channelSend name name' | .cellSet name name' | .indexGet name name' => [name, name']
  | .returnWith e | .loop e | .breakWith e | .taskGroup e => e.freeVars
  | .seq exprs | .tupleNew exprs | .listNew exprs => AnfExpr.freeVarsAll exprs
  | .matchOn scrutinee arms => scrutinee :: AnfExpr.freeVarsArms arms
  | .lambda params captures body => captures ++ without body.freeVars params
  | .recordNew fields => AnfExpr.freeVarsFields fields
  | .fieldUpdate name _ e | .whileLoop name e | .shortCircuitAnd name e | .shortCircuitOr name e
  | .timeout name e => name :: e.freeVars
  | .variantNew _ payload => AnfExpr.freeVarsOption payload
  | .select branches => AnfExpr.freeVarsBranches branches
  | .mapNew entries => entries.flatMap fun (key, value) => [key, value]
  | .forEach binding collection body => collection :: without body.freeVars [binding]
  | .fold init list func => [init, list, func]
  | .literal _ | .continueLoop | .channelNew _ | .assume _ _ | .abort _ | .placeholder => []

def AnfExpr.freeVarsAll : List AnfExpr → List String
  | [] => []
  | e :: es => e.freeVars ++ AnfExpr.freeVarsAll es

def AnfExpr.freeVarsArms : List (String × AnfExpr) → List String
  | [] => []
  | (pattern, body) :: arms =>
    without body.freeVars (armBinders pattern) ++ AnfExpr.freeVarsArms arms

def AnfExpr.freeVarsFields : List (String × AnfExpr) → List String
  | [] => []
  | (_, e) :: fields => e.freeVars ++ AnfExpr.freeVarsFields fields

def AnfExpr.freeVarsBranches : List (String × String × AnfExpr) → List String
  | [] => []
  | (channel, binding, body) :: branches =>
    channel :: without body.freeVars [binding] ++ AnfExpr.freeVarsBranches branches

def AnfExpr.freeVarsOption : Option AnfExpr → List String
  | none => []
  | some e => e.freeVars

end

/-! ## The capture analysis of the compiler

`collectFreeVars` is the source's own walk (`wasm_abi/bindings.rs`). It
does not look at scrutinees, at the left operand of a short circuit, at
the record of an update, at field reads, cells, folds and several other
forms, so it may report fewer names than are free. -/

/-- Report a name unless it is bound or already reported. -/
def pushFree (bound out : List String) (name : String) : List String :=
  if name ∈ bound ∨ name ∈ out then out else out ++ [name]

mutual

def collectFreeVars : AnfExpr → List String → List String → List String
  | .var name, bound, out => pushFree bound out name
  | .letIn name value body, bound, out =>
    collectFreeVars body (name :: bound) (collectFreeVars value bound out)
  | .ifElse cond thenBranch elseBranch, bound, out =>
    collectFreeVars elseBranch bound
      (collectFreeVars thenBranch bound (pushFree bound out cond))
  | .call _ args, bound, out | .effectCall _ _ args, bound, out =>
    args.foldl (pushFree bound) out
  | .returnWith inner, bound, out | .shortCircuitAnd _ inner, bound, out
  | .shortCircuitOr _ inner, bound, out | .loop inner, bound, out
  | .breakWith inner, bound, out | .fieldUpdate _ _ inner, bound, out =>
    collectFreeVars inner bound out
  | .whileLoop cond body, bound, out => collectFreeVars body bound (pushFree bound out cond)
  | .seq exprs, bound, out | .tupleNew exprs, bound, out | .listNew exprs, bound, out =>
    collectFreeVarsAll exprs bound out
  | .matchOn _ arms, bound, out => collectFreeVarsArms arms bound out
  | .lambda params captures body, bound, out =>
    if captures.isEmpty then collectFreeVars body (params ++ bound) out
    else captures.foldl (pushFree bound) out
  | .recordNew fields, bound, out => collectFreeVarsFields fields bound out
  | .variantNew _ payload, bound, out => collectFreeVarsOption payload bound out
  | _, _, out => out

def collectFreeVarsAll : List AnfExpr → List String → List String → List String
  | [], _, out => out
  | e :: es, bound, out => collectFreeVarsAll es bound (collectFreeVars e bound out)

def collectFreeVarsArms : List (String × AnfExpr) → List String → List String → List String
  | [], _, out => out
  | (pattern, body) :: arms, bound, out =>
    collectFreeVarsArms arms bound (collectFreeVars body (armBinders pattern ++ bound) out)

def collectFreeVarsFields : List (String × AnfExpr) → List String → List String → List String
  | [], _, out => out
  | (_, e) :: fields, bound, out => collectFreeVarsFields fields bound (collectFreeVars e bound out)

def collectFreeVarsOption : Option AnfExpr → List String → List String → List String
  | none, _, out => out
  | some e, bound, out => collectFreeVars e bound out

end

/-- The captures recorded for a lambda: what the walk reports for its
body with the parameters bound. -/
def lambdaCaptures (params : List String) (body : AnfExpr) : List String :=
  collectFreeVars body params []

/-! ## Induction over subexpressions -/

/-- The direct subexpressions. -/
@[simp] def AnfExpr.children : AnfExpr → List AnfExpr
  | .letIn _ value body => [value, body]
  | .ifElse _ thenBranch elseBranch => [thenBranch, elseBranch]
  | .returnWith e | .loop e | .breakWith e | .taskGroup e | .lambda _ _ e | .fieldUpdate _ _ e
  | .whileLoop _ e | .shortCircuitAnd _ e | .shortCircuitOr _ e | .timeout _ e
  | .forEach _ _ e => [e]
  | .seq exprs | .tupleNew exprs | .listNew exprs => exprs
  | .matchOn _ arms => arms.map (·.2)
  | .recordNew fields => fields.map (·.2)
  | .variantNew _ payload => payload.toList
  | .select branches => branches.map (·.2.2)
  | _ => []

open AnfExpr

theorem AnfExpr.sizeOf_lt_of_mem_children {child e : AnfExpr} (hmem : child ∈ e.children) :
    sizeOf child < sizeOf e := by
  cases e with
  | seq exprs | tupleNew exprs | listNew exprs =>
    have hlt : sizeOf child < sizeOf exprs := sizeOf_lt_of_mem hmem
    simp only [seq.sizeOf_spec, tupleNew.sizeOf_spec, listNew.sizeOf_spec]
    omega
  | matchOn _ pairs | recordNew pairs =>
    obtain ⟨⟨label, e⟩, hpair, rfl⟩ := mem_map.1 hmem
    have hlt := sizeOf_lt_of_mem hpair
    simp only [Prod.mk.sizeOf_spec, matchOn.sizeOf_spec,
      recordNew.sizeOf_spec] at hlt ⊢
    omega
  | select branches =>
    obtain ⟨⟨channel, binding, e⟩, hpair, rfl⟩ := mem_map.1 hmem
    have hlt := sizeOf_lt_of_mem hpair
    simp only [Prod.mk.sizeOf_spec, select.sizeOf_spec] at hlt ⊢
    omega
  | variantNew _ payload =>
    cases payload with
    | none => cases hmem
    | some e =>
      obtain rfl : child = e := by simpa using hmem
      simp only [variantNew.sizeOf_spec, Option.some.sizeOf_spec]
      omega
  | _ =>
    simp only [children, mem_cons, not_mem_nil, or_false] at hmem
    all_goals first
      | exact hmem.elim
      | (rcases hmem with rfl | rfl <;> simp <;> omega)

/-- Induction where the hypothesis covers every direct subexpression. -/
@[elab_as_elim]
theorem AnfExpr.childInduction {motive : AnfExpr → Prop}
    (step : ∀ e, (∀ child ∈ e.children, motive child) → motive e) (e : AnfExpr) : motive e :=
  step e fun child _ => childInduction step child
termination_by sizeOf e
decreasing_by exact AnfExpr.sizeOf_lt_of_mem_children ‹_›

/-! ## What the walk meets -/

mutual

/-- The free names at the places the walk looks at, in order, as often as
they stand there. -/
def AnfExpr.captureUses : AnfExpr → List String
  | .var name => [name]
  | .letIn name value body => value.captureUses ++ without body.captureUses [name]
  | .ifElse cond thenBranch elseBranch =>
    cond :: (thenBranch.captureUses ++ elseBranch.captureUses)
  | .call _ args | .effectCall _ _ args => args
  | .returnWith inner | .shortCircuitAnd _ inner | .shortCircuitOr _ inner | .loop inner
  | .breakWith inner | .fieldUpdate _ _ inner => inner.captureUses
  | .whileLoop cond body => cond :: body.captureUses
  | .seq exprs | .tupleNew exprs | .listNew exprs => AnfExpr.captureUsesAll exprs
  | .matchOn _ arms => AnfExpr.captureUsesArms arms
  | .lambda params captures body =>
    if captures.isEmpty then without body.captureUses params else captures
  | .recordNew fields => AnfExpr.captureUsesFields fields
  | .variantNew _ payload => AnfExpr.captureUsesOption payload
  | _ => []

def AnfExpr.captureUsesAll : List AnfExpr → List String
  | [] => []
  | e :: es => e.captureUses ++ AnfExpr.captureUsesAll es

def AnfExpr.captureUsesArms : List (String × AnfExpr) → List String
  | [] => []
  | (pattern, body) :: arms =>
    without body.captureUses (armBinders pattern) ++ AnfExpr.captureUsesArms arms

def AnfExpr.captureUsesFields : List (String × AnfExpr) → List String
  | [] => []
  | (_, e) :: fields => e.captureUses ++ AnfExpr.captureUsesFields fields

def AnfExpr.captureUsesOption : Option AnfExpr → List String
  | none => []
  | some e => e.captureUses

end

theorem without_append (names names' bound : List String) :
    without (names ++ names') bound = without names bound ++ without names' bound :=
  filter_append ..

theorem without_without (names inner bound : List String) :
    without (without names inner) bound = without names (inner ++ bound) := by
  simp [without, Bool.and_comm]

theorem foldl_pushFree (bound names out : List String) :
    names.foldl (pushFree bound) out = (without names bound).foldl keepFirst out := by
  induction names generalizing out with
  | nil => rfl
  | cons name names ih =>
    rw [foldl_cons, ih]
    by_cases hbound : name ∈ bound
    · simp [without, pushFree, hbound]
    · simp [without, pushFree, hbound, keepFirst]

theorem pushFree_eq (bound out : List String) (name : String) :
    pushFree bound out name = (without [name] bound).foldl keepFirst out :=
  foldl_pushFree bound [name] out

mutual

/-- The walk keeps each name it meets once. -/
theorem collectFreeVars_eq (e : AnfExpr) (bound out : List String) :
    collectFreeVars e bound out = (without e.captureUses bound).foldl keepFirst out := by
  cases e with
  | var name => exact pushFree_eq bound out name
  | letIn name value body =>
    rw [collectFreeVars, captureUses, without_append, without_without, foldl_append,
      collectFreeVars_eq value, collectFreeVars_eq body]
    rfl
  | ifElse cond thenBranch elseBranch =>
    rw [collectFreeVars, captureUses, ← singleton_append, without_append,
      without_append, foldl_append, foldl_append, pushFree_eq,
      collectFreeVars_eq thenBranch, collectFreeVars_eq elseBranch]
  | call _ args | effectCall _ _ args => exact foldl_pushFree bound args out
  | returnWith inner | shortCircuitAnd _ inner | shortCircuitOr _ inner | loop inner
  | breakWith inner | fieldUpdate _ _ inner =>
    rw [collectFreeVars, captureUses, collectFreeVars_eq inner]
  | whileLoop cond body =>
    rw [collectFreeVars, captureUses, ← singleton_append, without_append,
      foldl_append, pushFree_eq, collectFreeVars_eq body]
  | seq exprs | tupleNew exprs | listNew exprs =>
    rw [collectFreeVars, captureUses, collectFreeVarsAll_eq exprs]
  | matchOn _ arms => rw [collectFreeVars, captureUses, collectFreeVarsArms_eq arms]
  | lambda params captures body =>
    rw [collectFreeVars, captureUses]
    split
    · rw [without_without, collectFreeVars_eq body]
    · exact foldl_pushFree bound captures out
  | recordNew fields =>
    rw [collectFreeVars, captureUses, collectFreeVarsFields_eq fields]
  | variantNew _ payload =>
    rw [collectFreeVars, captureUses, collectFreeVarsOption_eq payload]
  | _ => simp [collectFreeVars, captureUses, without]

theorem collectFreeVarsAll_eq (es : List AnfExpr) (bound out : List String) :
    collectFreeVarsAll es bound out =
      (without (captureUsesAll es) bound).foldl keepFirst out := by
  match es with
  | [] => rfl
  | e :: es =>
    rw [collectFreeVarsAll, captureUsesAll, without_append, foldl_append,
      collectFreeVars_eq e, collectFreeVarsAll_eq es]

theorem collectFreeVarsArms_eq (arms : List (String × AnfExpr)) (bound out : List String) :
    collectFreeVarsArms arms bound out =
      (without (captureUsesArms arms) bound).foldl keepFirst out := by
  match arms with
  | [] => rfl
  | (pattern, body) :: arms =>
    rw [collectFreeVarsArms, captureUsesArms, without_append, without_without,
      foldl_append, collectFreeVars_eq body, collectFreeVarsArms_eq arms]

theorem collectFreeVarsFields_eq (fields : List (String × AnfExpr)) (bound out : List String) :
    collectFreeVarsFields fields bound out =
      (without (captureUsesFields fields) bound).foldl keepFirst out := by
  match fields with
  | [] => rfl
  | (_, e) :: fields =>
    rw [collectFreeVarsFields, captureUsesFields, without_append, foldl_append,
      collectFreeVars_eq e, collectFreeVarsFields_eq fields]

theorem collectFreeVarsOption_eq (payload : Option AnfExpr) (bound out : List String) :
    collectFreeVarsOption payload bound out =
      (without (captureUsesOption payload) bound).foldl keepFirst out := by
  match payload with
  | none => rfl
  | some e => rw [collectFreeVarsOption, captureUsesOption, collectFreeVars_eq e]

end

/-! ## What the walk does not meet -/

mutual

/-- The free names at the places the walk passes over: the record of an
update, the scrutinee of a match, the left operand of a short circuit, the
body of a lambda that lists captures, and all of field reads, dispatch,
tasks, channels, selection, timeouts, resources, checks, cells, indexing,
maps, sets, for-each loops and folds. -/
def AnfExpr.hiddenUses : AnfExpr → List String
  | .letIn name value body => value.hiddenUses ++ without body.hiddenUses [name]
  | .ifElse _ thenBranch elseBranch => thenBranch.hiddenUses ++ elseBranch.hiddenUses
  | .returnWith e | .loop e | .breakWith e | .whileLoop _ e => e.hiddenUses
  | .fieldUpdate name _ e | .shortCircuitAnd name e | .shortCircuitOr name e =>
    name :: e.hiddenUses
  | .seq exprs | .tupleNew exprs | .listNew exprs => AnfExpr.hiddenUsesAll exprs
  | .matchOn scrutinee arms => scrutinee :: AnfExpr.hiddenUsesArms arms
  | .lambda params [] body => without body.hiddenUses params
  | .lambda params (_ :: _) body => without body.freeVars params
  | .recordNew fields => AnfExpr.hiddenUsesFields fields
  | .variantNew _ payload => AnfExpr.hiddenUsesOption payload
  | .var _ | .call _ _ | .effectCall _ _ _ => []
  | e => e.freeVars

def AnfExpr.hiddenUsesAll : List AnfExpr → List String
  | [] => []
  | e :: es => e.hiddenUses ++ AnfExpr.hiddenUsesAll es

def AnfExpr.hiddenUsesArms : List (String × AnfExpr) → List String
  | [] => []
  | (pattern, body) :: arms =>
    without body.hiddenUses (armBinders pattern) ++ AnfExpr.hiddenUsesArms arms

def AnfExpr.hiddenUsesFields : List (String × AnfExpr) → List String
  | [] => []
  | (_, e) :: fields => e.hiddenUses ++ AnfExpr.hiddenUsesFields fields

def AnfExpr.hiddenUsesOption : Option AnfExpr → List String
  | none => []
  | some e => e.hiddenUses

end

section Perm

variable {met met' hidden hidden' free free' : List String}

theorem perm_append_parts (h : met ++ hidden ~ free) (h' : met' ++ hidden' ~ free') :
    (met ++ met') ++ (hidden ++ hidden') ~ free ++ free' := by
  refine Perm.trans ?_ (h.append h')
  rw [append_assoc, append_assoc, perm_append_left_iff, ← append_assoc, ← append_assoc]
  exact perm_append_comm.append_right _

theorem perm_without (h : met ++ hidden ~ free) (bound : List String) :
    without met bound ++ without hidden bound ~ without free bound := by
  rw [← without_append]
  exact h.filter _

end Perm

mutual

/-- Each free occurrence of a name is met or hidden. -/
theorem AnfExpr.uses_perm (e : AnfExpr) : e.captureUses ++ e.hiddenUses ~ e.freeVars := by
  cases e with
  | letIn name value body => exact perm_append_parts value.uses_perm (perm_without body.uses_perm _)
  | ifElse cond thenBranch elseBranch =>
    exact (perm_append_parts thenBranch.uses_perm elseBranch.uses_perm).cons cond
  | returnWith e | loop e | breakWith e => exact e.uses_perm
  | whileLoop cond e => exact e.uses_perm.cons cond
  | fieldUpdate name _ e | shortCircuitAnd name e | shortCircuitOr name e =>
    exact perm_middle.trans (e.uses_perm.cons name)
  | seq exprs | tupleNew exprs | listNew exprs => exact usesAll_perm exprs
  | matchOn scrutinee arms => exact perm_middle.trans ((usesArms_perm arms).cons scrutinee)
  | lambda params captures body =>
    cases captures with
    | nil => exact perm_without body.uses_perm params
    | cons capture captures => exact .refl _
  | recordNew fields => exact usesFields_perm fields
  | variantNew _ payload =>
    cases payload with
    | none => exact .refl _
    | some e => exact e.uses_perm
  | var _ | call _ _ | effectCall _ _ _ => exact .of_eq (append_nil _)
  | _ => exact .refl _

theorem AnfExpr.usesAll_perm (es : List AnfExpr) :
    captureUsesAll es ++ hiddenUsesAll es ~ freeVarsAll es := by
  match es with
  | [] => exact .refl _
  | e :: es => exact perm_append_parts e.uses_perm (usesAll_perm es)

theorem AnfExpr.usesArms_perm (arms : List (String × AnfExpr)) :
    captureUsesArms arms ++ hiddenUsesArms arms ~ freeVarsArms arms := by
  match arms with
  | [] => exact .refl _
  | (_, body) :: arms =>
    exact perm_append_parts (perm_without body.uses_perm _) (usesArms_perm arms)

theorem AnfExpr.usesFields_perm (fields : List (String × AnfExpr)) :
    captureUsesFields fields ++ hiddenUsesFields fields ~ freeVarsFields fields := by
  match fields with
  | [] => exact .refl _
  | (_, e) :: fields => exact perm_append_parts e.uses_perm (usesFields_perm fields)

end

/-- The walk meets only names that are free in the expression. -/
theorem AnfExpr.captureUses_subset (e : AnfExpr) : e.captureUses ⊆ e.freeVars :=
  fun _ hmet => e.uses_perm.subset (mem_append_left _ hmet)

/-- The walk reports what it meets unbound. -/
theorem mem_collectFreeVars {e : AnfExpr} {bound : List String} {name : String} :
    name ∈ collectFreeVars e bound [] ↔ name ∈ e.captureUses ∧ name ∉ bound := by
  rw [collectFreeVars_eq, ← firsts, mem_firsts, mem_without]

/-- Captures are free variables of the body that no parameter binds. -/
theorem mem_lambdaCaptures {params : List String} {body : AnfExpr} {name : String}
    (hmem : name ∈ lambdaCaptures params body) : name ∈ without body.freeVars params := by
  obtain ⟨hmet, hbound⟩ := mem_collectFreeVars.1 hmem
  exact mem_without.2 ⟨body.captureUses_subset hmet, hbound⟩

/-! ## Lists of parts -/

/-- A function that is computed part by part. -/
theorem flatMap_of_cons {α : Type} {f : List α → List String} {g : α → List String}
    (hnil : f [] = []) (hcons : ∀ a as, f (a :: as) = g a ++ f as) (as : List α) :
    f as = as.flatMap g := by
  induction as with
  | nil => exact hnil
  | cons a as ih => rw [hcons, ih, flatMap_cons]

variable (es : List AnfExpr) (arms : List (String × AnfExpr))

theorem AnfExpr.freeVarsAll_eq : freeVarsAll es = es.flatMap (·.freeVars) :=
  flatMap_of_cons rfl (fun _ _ => rfl) es

theorem AnfExpr.freeVarsArms_eq :
    freeVarsArms arms = arms.flatMap fun arm => without arm.2.freeVars (armBinders arm.1) :=
  flatMap_of_cons rfl (fun _ _ => rfl) arms

theorem AnfExpr.freeVarsFields_eq : freeVarsFields arms = arms.flatMap (·.2.freeVars) :=
  flatMap_of_cons rfl (fun _ _ => rfl) arms

theorem AnfExpr.freeVarsBranches_eq (branches : List (String × String × AnfExpr)) :
    freeVarsBranches branches =
      branches.flatMap fun branch => branch.1 :: without branch.2.2.freeVars [branch.2.1] :=
  flatMap_of_cons rfl (fun _ _ => rfl) branches

theorem AnfExpr.captureUsesAll_eq : captureUsesAll es = es.flatMap (·.captureUses) :=
  flatMap_of_cons rfl (fun _ _ => rfl) es

theorem AnfExpr.captureUsesArms_eq :
    captureUsesArms arms = arms.flatMap fun arm => without arm.2.captureUses (armBinders arm.1) :=
  flatMap_of_cons rfl (fun _ _ => rfl) arms

theorem AnfExpr.captureUsesFields_eq : captureUsesFields arms = arms.flatMap (·.2.captureUses) :=
  flatMap_of_cons rfl (fun _ _ => rfl) arms

end Ail.Compiler
