import Ail.Compiler.Anf
import Ail.Compiler.IntOps

/-!
# Constant folding and dead lets

The optimizer of A-normal form (`optimize/const_fold.rs`,
`optimize/purity.rs`). One walk carries a map from names to literals: a
let whose value is a literal enters it, calls of integer primitives on
known operands become literals, a branch on a known condition is
replaced by the side taken, and a let whose value counts as pure and
whose name is not used is removed.

The walk changes the map in place; `optimizeExpr_env` says that it hands
it back as it was, so that `optimized` can be read as a function of the
map at hand.
-/

namespace Ail.Compiler

open List

/-! ## Purity and uses -/

mutual

/-- `is_pure`. -/
def isPure : AnfExpr → Bool
  | .literal _ | .var _ | .call _ _ | .fieldGet _ _ | .recordNew _ | .tupleNew _ | .variantNew _ _
  | .listNew _ | .lambda _ _ _ => true
  | .letIn _ value body => isPure value && isPure body
  | .ifElse _ thenBranch elseBranch => isPure thenBranch && isPure elseBranch
  | .seq exprs => isPureAll exprs
  | .matchOn _ arms => isPureArms arms
  | _ => false

def isPureAll : List AnfExpr → Bool
  | [] => true
  | e :: es => isPure e && isPureAll es

def isPureArms : List (String × AnfExpr) → Bool
  | [] => true
  | (_, body) :: arms => isPure body && isPureArms arms

end

mutual

/-- `uses_var`. -/
def usesVar (name : String) : AnfExpr → Bool
  | .var var => var == name
  | .letIn binding value body => usesVar name value || (binding != name && usesVar name body)
  | .ifElse cond thenBranch elseBranch =>
    cond == name || usesVar name thenBranch || usesVar name elseBranch
  | .call _ args | .effectCall _ _ args | .dispatch _ _ args | .taskSpawn _ args
  | .resourceAcquire _ args | .setNew args => args.any (· == name)
  | .fieldGet record _ => record == name
  -- the duration of a timeout is not looked at
  | .returnWith inner | .loop inner | .breakWith inner | .taskGroup inner | .timeout _ inner =>
    usesVar name inner
  | .shortCircuitAnd left right | .shortCircuitOr left right => left == name || usesVar name right
  | .seq exprs | .tupleNew exprs | .listNew exprs => usesVarAll name exprs
  | .matchOn scrutinee arms => scrutinee == name || usesVarArms name arms
  | .lambda params captures body =>
    captures.any (· == name) || (!params.any (· == name) && usesVar name body)
  | .recordNew fields => usesVarArms name fields
  | .fieldUpdate record _ value => record == name || usesVar name value
  | .variantNew _ payload => usesVarOption name payload
  | .whileLoop cond body => cond == name || usesVar name body
  | .channelSend left right | .cellSet left right | .indexGet left right =>
    left == name || right == name
  | .channelReceive atom | .resourceRelease atom | .taskAwait atom | .taskCancel atom
  | .cellGet atom | .cellNew atom | .runtimeCheck _ atom _ => atom == name
  | .select branches => usesVarBranches name branches
  | .fold init list func => init == name || list == name || func == name
  | .mapNew entries => entries.any fun entry => entry.1 == name || entry.2 == name
  | .forEach binding collection body =>
    collection == name || (binding != name && usesVar name body)
  | .literal _ | .continueLoop | .channelNew _ | .assume _ _ | .abort _ | .placeholder => false

def usesVarAll (name : String) : List AnfExpr → Bool
  | [] => false
  | e :: es => usesVar name e || usesVarAll name es

/-- Over arms, which bind nothing here, and over fields. -/
def usesVarArms (name : String) : List (String × AnfExpr) → Bool
  | [] => false
  | (_, body) :: arms => usesVar name body || usesVarArms name arms

def usesVarBranches (name : String) : List (String × String × AnfExpr) → Bool
  | [] => false
  | (channel, _, body) :: branches =>
    channel == name || usesVar name body || usesVarBranches name branches

def usesVarOption (name : String) : Option AnfExpr → Bool
  | none => false
  | some e => usesVar name e

end

theorem any_of_cons {α : Type} {f : List α → Bool} {g : α → Bool}
    (hnil : f [] = false) (hcons : ∀ a as, f (a :: as) = (g a || f as)) (as : List α) :
    f as = as.any g := by
  induction as with
  | nil => exact hnil
  | cons a as ih => rw [hcons, ih, any_cons]

theorem usesVarAll_eq (x : String) (es : List AnfExpr) : usesVarAll x es = es.any (usesVar x) :=
  any_of_cons rfl (fun _ _ => rfl) es

theorem usesVarArms_eq (x : String) (arms : List (String × AnfExpr)) :
    usesVarArms x arms = arms.any (usesVar x ·.2) :=
  any_of_cons rfl (fun _ _ => rfl) arms

theorem usesVarBranches_eq (x : String) (branches : List (String × String × AnfExpr)) :
    usesVarBranches x branches =
      branches.any fun branch => branch.1 == x || usesVar x branch.2.2 :=
  any_of_cons rfl (fun _ _ => rfl) branches

/-! ## The walk -/

/-- The literals that names are known to stand for. -/
abbrev Known := String → Option LiteralValue

def Known.empty : Known := fun _ => none

variable (known : Known) (name : String)

/-- Insert an entry, or remove the one that is there. -/
def Known.put (entry : Option LiteralValue) : Known :=
  fun x => if x = name then entry else known x

def Known.remove (names : List String) : Known :=
  fun x => if x ∈ names then none else known x

/-- `restore_env`. -/
def restoreEnv (previous : Option LiteralValue) : Known :=
  known.put name previous

/-- An operand of `fold_call`. -/
def knownInt : Option Int64 :=
  match known name with
  | some (.int value) => some value
  | some (.bool value) => some (if value then 1 else 0)
  | _ => none

/-- `fold_call`. -/
def foldCall (func : String) (args : List String) : Option LiteralValue := do
  let ints ← args.mapM (knownInt known)
  let op ← intOp func
  foldInts op ints

/-- The side that a branch on a known condition takes. -/
def decided : Option LiteralValue → Option Bool
  | some (.bool value) => some value
  | some (.int value) =>
    if value = 1 then some true else if value = 0 then some false else none
  | _ => none

def literal? : AnfExpr → Option LiteralValue
  | .literal value => some value
  | _ => none

mutual

/-- `optimize_expr`, with the map it leaves. -/
def optimizeExpr : AnfExpr → Known → AnfExpr × Known
  | .letIn name value body, known =>
    let (value, known) := optimizeExpr value known
    let previous := known name
    let (body, known) := optimizeExpr body (known.put name (literal? value))
    (if isPure value && !usesVar name body then body else .letIn name value body,
      restoreEnv known name previous)
  | .call func args, known =>
    (((foldCall known func args).map AnfExpr.literal).getD (.call func args), known)
  | .ifElse cond thenBranch elseBranch, known =>
    match decided (known cond) with
    | some true => optimizeExpr thenBranch known
    | some false => optimizeExpr elseBranch known
    | none =>
      let (thenBranch, known) := optimizeExpr thenBranch known
      let (elseBranch, known) := optimizeExpr elseBranch known
      (.ifElse cond thenBranch elseBranch, known)
  | .returnWith inner, known =>
    let (inner, known) := optimizeExpr inner known
    (.returnWith inner, known)
  | .seq exprs, known =>
    let (exprs, known) := optimizeAll exprs known
    (.seq exprs, known)
  | .recordNew fields, known =>
    let (fields, known) := optimizeArms fields known
    (.recordNew fields, known)
  | .fieldUpdate record field value, known =>
    let (value, known) := optimizeExpr value known
    (.fieldUpdate record field value, known)
  | .tupleNew elems, known =>
    let (elems, known) := optimizeAll elems known
    (.tupleNew elems, known)
  | .variantNew tag payload, known =>
    let (payload, known) := optimizeOption payload known
    (.variantNew tag payload, known)
  | .listNew elems, known =>
    let (elems, known) := optimizeAll elems known
    (.listNew elems, known)
  | .loop body, known =>
    let (body, known) := optimizeExpr body known
    (.loop body, known)
  | .breakWith value, known =>
    let (value, known) := optimizeExpr value known
    (.breakWith value, known)
  | .shortCircuitAnd left right, known =>
    let (right, known) := optimizeExpr right known
    (.shortCircuitAnd left right, known)
  | .shortCircuitOr left right, known =>
    let (right, known) := optimizeExpr right known
    (.shortCircuitOr left right, known)
  | .matchOn scrutinee arms, known =>
    let (arms, known) := optimizeArms arms known
    (.matchOn scrutinee arms, known)
  | .lambda params _ body, known =>
    let (body, _) := optimizeExpr body (known.remove params)
    (.lambda params (lambdaCaptures params body) body, known)
  | .taskGroup body, known =>
    let (body, known) := optimizeExpr body known
    (.taskGroup body, known)
  | .timeout duration body, known =>
    let (body, known) := optimizeExpr body known
    (.timeout duration body, known)
  | other, known => (other, known)

def optimizeAll : List AnfExpr → Known → List AnfExpr × Known
  | [], known => ([], known)
  | e :: es, known =>
    let (e, known) := optimizeExpr e known
    let (es, known) := optimizeAll es known
    (e :: es, known)

/-- Match arms and record fields: patterns and field names stay. -/
def optimizeArms : List (String × AnfExpr) → Known → List (String × AnfExpr) × Known
  | [], known => ([], known)
  | (label, e) :: arms, known =>
    let (e, known) := optimizeExpr e known
    let (arms, known) := optimizeArms arms known
    ((label, e) :: arms, known)

def optimizeOption : Option AnfExpr → Known → Option AnfExpr × Known
  | none, known => (none, known)
  | some e, known =>
    let (e, known) := optimizeExpr e known
    (some e, known)

end

theorem restoreEnv_put (entry : Option LiteralValue) :
    restoreEnv (known.put name entry) name (known name) = known := by
  funext x
  unfold restoreEnv Known.put
  split_ifs with hx
  · rw [hx]
  · rfl

/-- The walk over `e` leaves the map as it found it. -/
def Restores (e : AnfExpr) : Prop := ∀ known, (optimizeExpr e known).2 = known

theorem optimizeAll_env {es : List AnfExpr} (hes : ∀ e ∈ es, Restores e) (known : Known) :
    (optimizeAll es known).2 = known := by
  induction es with
  | nil => rfl
  | cons e es ih =>
    rw [forall_mem_cons] at hes
    simp [optimizeAll, hes.1 known, ih hes.2]

theorem optimizeArms_env {arms : List (String × AnfExpr)} (harms : ∀ arm ∈ arms, Restores arm.2)
    (known : Known) : (optimizeArms arms known).2 = known := by
  induction arms with
  | nil => rfl
  | cons arm arms ih =>
    rw [forall_mem_cons] at harms
    simp [optimizeArms, harms.1 known, ih harms.2]

theorem optimizeOption_env {payload : Option AnfExpr} (hpayload : ∀ e ∈ payload, Restores e)
    (known : Known) : (optimizeOption payload known).2 = known := by
  cases payload with
  | none => rfl
  | some e => exact hpayload e rfl known

/-- The walk leaves the map as it found it. -/
theorem optimizeExpr_env (e : AnfExpr) : Restores e := by
  induction e using AnfExpr.childInduction with
  | step e ih =>
    intro known
    cases e with
    | letIn name value body =>
      have hvalue := ih value (by simp)
      have hbody := ih body (by simp)
      simp [optimizeExpr, hvalue known, hbody _, restoreEnv_put]
    | ifElse cond thenBranch elseBranch =>
      have hthen := ih thenBranch (by simp)
      have helse := ih elseBranch (by simp)
      rw [optimizeExpr]
      split
      · exact hthen known
      · exact helse known
      · simp [hthen known, helse known]
    | returnWith e | fieldUpdate _ _ e | loop e | breakWith e | shortCircuitAnd _ e
    | shortCircuitOr _ e | taskGroup e | timeout _ e =>
      exact ih e (by simp) known
    | seq exprs | tupleNew exprs | listNew exprs => exact optimizeAll_env ih known
    | recordNew arms | matchOn _ arms =>
      exact optimizeArms_env (fun arm harm => ih arm.2 (mem_map_of_mem harm)) known
    | variantNew _ payload =>
      exact optimizeOption_env (fun e he => ih e (Option.mem_toList.2 he)) known
    | _ => rfl

/-- The expression the walk makes of `e`, given the literals known. -/
def optimized (e : AnfExpr) : AnfExpr := (optimizeExpr e known).1

variable (es : List AnfExpr)

theorem optimizeAll_eq : (optimizeAll es known).1 = es.map (optimized known) := by
  induction es with
  | nil => rfl
  | cons e es ih => simp [optimizeAll, optimizeExpr_env e known, ih, optimized]

theorem optimizeArms_eq (arms : List (String × AnfExpr)) :
    (optimizeArms arms known).1 = arms.map fun arm => (arm.1, optimized known arm.2) := by
  induction arms with
  | nil => rfl
  | cons arm arms ih =>
    simp [optimizeArms, optimizeExpr_env arm.2 known, ih, optimized]

theorem optimizeOption_eq (payload : Option AnfExpr) :
    (optimizeOption payload known).1 = payload.map (optimized known) := by
  cases payload <;> rfl

variable (value : AnfExpr)

/-- The literals known in the body of a let. -/
def Known.afterLet : Known :=
  known.put name (literal? (optimized known value))

/-- The walk removes this let. -/
def removesLet (body : AnfExpr) : Bool :=
  isPure (optimized known value) && !usesVar name (optimized (known.afterLet name value) body)

/-- A let is dropped or keeps its optimized parts. -/
theorem optimized_letIn (body : AnfExpr) :
    optimized known (.letIn name value body) =
      if removesLet known name value body then optimized (known.afterLet name value) body
      else .letIn name (optimized known value) (optimized (known.afterLet name value) body) := by
  simp only [optimized, optimizeExpr, optimizeExpr_env value known]
  rfl

theorem optimized_ifElse (cond : String) (thenBranch elseBranch : AnfExpr) :
    optimized known (.ifElse cond thenBranch elseBranch) =
      match decided (known cond) with
      | some true => optimized known thenBranch
      | some false => optimized known elseBranch
      | none => .ifElse cond (optimized known thenBranch) (optimized known elseBranch) := by
  rw [optimized, optimizeExpr]
  split
  · rfl
  · rfl
  · simp [optimized, optimizeExpr_env thenBranch known]

theorem optimized_call (func : String) (args : List String) :
    optimized known (.call func args) =
      ((foldCall known func args).map AnfExpr.literal).getD (.call func args) := rfl

/-- A lambda's captures are computed anew. -/
theorem optimized_lambda (params captures : List String) (body : AnfExpr) :
    optimized known (.lambda params captures body) =
      let body := optimized (known.remove params) body
      .lambda params (lambdaCaptures params body) body := rfl

theorem optimized_seq : optimized known (.seq es) = .seq (es.map (optimized known)) :=
  congrArg AnfExpr.seq (optimizeAll_eq known es)

theorem optimized_tupleNew :
    optimized known (.tupleNew es) = .tupleNew (es.map (optimized known)) :=
  congrArg AnfExpr.tupleNew (optimizeAll_eq known es)

theorem optimized_listNew : optimized known (.listNew es) = .listNew (es.map (optimized known)) :=
  congrArg AnfExpr.listNew (optimizeAll_eq known es)

theorem optimized_recordNew (fields : List (String × AnfExpr)) :
    optimized known (.recordNew fields) =
      .recordNew (fields.map fun field => (field.1, optimized known field.2)) :=
  congrArg AnfExpr.recordNew (optimizeArms_eq known fields)

theorem optimized_matchOn (scrutinee : String) (arms : List (String × AnfExpr)) :
    optimized known (.matchOn scrutinee arms) =
      .matchOn scrutinee (arms.map fun arm => (arm.1, optimized known arm.2)) :=
  congrArg (AnfExpr.matchOn scrutinee) (optimizeArms_eq known arms)

theorem optimized_variantNew (tag : String) (payload : Option AnfExpr) :
    optimized known (.variantNew tag payload) = .variantNew tag (payload.map (optimized known)) :=
  congrArg (AnfExpr.variantNew tag) (optimizeOption_eq known payload)

variable {known}

/-- A call is folded only if all its operands are known. -/
theorem ne_none_of_foldCall {func : String} {args : List String} {value : LiteralValue}
    (hfold : foldCall known func args = some value) : ∀ x ∈ args, known x ≠ none := by
  simp only [foldCall, Option.bind_eq_bind, Option.bind_eq_some_iff] at hfold
  obtain ⟨ints, hints, -⟩ := hfold
  induction args generalizing ints with
  | nil => simp
  | cons arg args ih =>
    simp only [mapM_cons, Option.bind_eq_bind, Option.bind_eq_some_iff] at hints
    obtain ⟨int, hint, ints', hrest, -⟩ := hints
    refine forall_mem_cons.2 ⟨fun hnone => ?_, ih ints' hrest⟩
    simp [knownInt, hnone] at hint

end Ail.Compiler
