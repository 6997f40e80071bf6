import Ail.Compiler.Optimize

/-!
# What the optimizer may do, read off its input

The optimizer goes wrong where it drops a let whose value matters, where
it overlooks the duration of a timeout, where a payload has the name of a
known literal, and where the captures it recomputes for a lambda miss a
name. `Safe` excludes these by looking at the expression before it is
optimized: which names may come to stand for literals (`mayBeLiteral`),
which values stay impure (`staysImpure`), which names stay used
(`staysUsed`) and which free names the capture walk passes over
(`unmet`). The lemmas say that these analyses are right about what the
optimizer makes of the expression.
-/

namespace Ail.Compiler

open List AnfExpr

/-! ## The analyses -/

/-- The optimizer may make a literal of the expression if no names but
`lits` stand for known literals. -/
def mayBeLiteral (lits : List String) : AnfExpr → Bool
  | .literal _ => true
  | .call func args => (intOp func).isSome && args.all (· ∈ lits)
  | .letIn _ _ body => mayBeLiteral lits body
  | .ifElse _ thenBranch elseBranch =>
    mayBeLiteral lits thenBranch || mayBeLiteral lits elseBranch
  | _ => false

/-- The expression does not count as pure, whichever of its branches the
optimizer keeps. -/
def staysImpure : AnfExpr → Bool
  | .letIn _ value body => staysImpure value || staysImpure body
  | .ifElse _ thenBranch elseBranch => staysImpure thenBranch && staysImpure elseBranch
  | .literal _ | .var _ | .call _ _ | .fieldGet _ _ | .recordNew _ | .tupleNew _ | .variantNew _ _
  | .listNew _ | .lambda _ _ _ | .seq _ | .matchOn _ _ => false
  | _ => true

mutual

/-- The optimizer keeps a use of the name, given that the name itself stands
for no known literal and only `lits` do. -/
def staysUsed (lits : List String) (name : String) : AnfExpr → Bool
  | .letIn binding value body =>
    (binding != name && staysUsed lits name body) ||
      (staysUsed lits name value && (staysImpure value || staysUsed lits binding body))
  | .ifElse cond thenBranch elseBranch =>
    cond == name || (staysUsed lits name thenBranch && staysUsed lits name elseBranch) ||
      (cond ∉ lits && (staysUsed lits name thenBranch || staysUsed lits name elseBranch))
  | .returnWith e | .loop e | .breakWith e | .taskGroup e | .timeout _ e => staysUsed lits name e
  | .fieldUpdate atom _ e | .shortCircuitAnd atom e | .shortCircuitOr atom e =>
    atom == name || staysUsed lits name e
  | .seq exprs | .tupleNew exprs | .listNew exprs => staysUsedAll lits name exprs
  | .matchOn scrutinee arms => scrutinee == name || staysUsedArms lits name arms
  | .lambda params _ body => !params.any (· == name) && staysUsed lits name body
  | .recordNew fields => staysUsedArms lits name fields
  | .variantNew _ payload => staysUsedOption lits name payload
  -- the other forms are left as they are
  | e => usesVar name e

def staysUsedAll (lits : List String) (name : String) : List AnfExpr → Bool
  | [] => false
  | e :: es => staysUsed lits name e || staysUsedAll lits name es

def staysUsedArms (lits : List String) (name : String) : List (String × AnfExpr) → Bool
  | [] => false
  | (_, e) :: arms => staysUsed lits name e || staysUsedArms lits name arms

def staysUsedOption (lits : List String) (name : String) : Option AnfExpr → Bool
  | none => false
  | some e => staysUsed lits name e

end

mutual

/-- The free names at places the capture walk passes over, a lambda being
entered whatever captures it lists. -/
def unmet : AnfExpr → List String
  | .letIn name value body => unmet value ++ without (unmet body) [name]
  | .ifElse _ thenBranch elseBranch => unmet thenBranch ++ unmet elseBranch
  | .returnWith e | .loop e | .breakWith e => unmet e
  | .fieldUpdate atom _ e | .shortCircuitAnd atom e | .shortCircuitOr atom e => atom :: unmet e
  | .seq exprs | .tupleNew exprs | .listNew exprs => unmetAll exprs
  | .matchOn scrutinee arms => scrutinee :: unmetArms arms
  | .lambda params _ body => without (unmet body) params
  | .recordNew fields => unmetFields fields
  | .variantNew _ payload => unmetOption payload
  | e => e.hiddenUses

def unmetAll : List AnfExpr → List String
  | [] => []
  | e :: es => unmet e ++ unmetAll es

def unmetArms : List (String × AnfExpr) → List String
  | [] => []
  | (pattern, body) :: arms => without (unmet body) (armBinders pattern) ++ unmetArms arms

def unmetFields : List (String × AnfExpr) → List String
  | [] => []
  | (_, e) :: fields => unmet e ++ unmetFields fields

def unmetOption : Option AnfExpr → List String
  | none => []
  | some e => unmet e

end

theorem staysUsedAll_eq (lits : List String) (name : String) (es : List AnfExpr) :
    staysUsedAll lits name es = es.any (staysUsed lits name) :=
  any_of_cons rfl (fun _ _ => rfl) es

theorem staysUsedArms_eq (lits : List String) (name : String) (arms : List (String × AnfExpr)) :
    staysUsedArms lits name arms = arms.any (staysUsed lits name ·.2) :=
  any_of_cons rfl (fun _ _ => rfl) arms

theorem unmetAll_eq (es : List AnfExpr) : unmetAll es = es.flatMap unmet :=
  flatMap_of_cons rfl (fun _ _ => rfl) es

theorem unmetArms_eq (arms : List (String × AnfExpr)) :
    unmetArms arms = arms.flatMap fun arm => without (unmet arm.2) (armBinders arm.1) :=
  flatMap_of_cons rfl (fun _ _ => rfl) arms

theorem unmetFields_eq (fields : List (String × AnfExpr)) :
    unmetFields fields = fields.flatMap (unmet ·.2) :=
  flatMap_of_cons rfl (fun _ _ => rfl) fields

/-- The name is the duration of a timeout inside the expression. -/
inductive TimesOut (name : String) : AnfExpr → Prop
  | here (body : AnfExpr) : TimesOut name (.timeout name body)
  | inside {e child : AnfExpr} : child ∈ e.children → TimesOut name child → TimesOut name e

/-- The parts of an expression that the optimizer walks. -/
@[simp] def AnfExpr.walked : AnfExpr → List AnfExpr
  | .whileLoop _ _ | .forEach _ _ _ | .select _ => []
  | e => e.children

section

variable (calm : AnfExpr → Prop) (lits : List String)

/-- What is asked of one form: a let that may be dropped has a calm value
and is no timeout's duration, no payload is called like a literal, and a
lambda lists the free names of its body, all of them at places the capture
walk looks at. -/
def Allowed : AnfExpr → Prop
  | .letIn name value body =>
    (mayBeLiteral lits value = true → name ∈ lits) ∧ ¬ TimesOut name body ∧
      (staysImpure value = true ∨ staysUsed lits name body = true ∨ calm value)
  | .matchOn _ arms => ∀ arm ∈ arms, ∀ x ∈ armBinders arm.1, x ∉ lits
  | .lambda params captures body =>
    (∀ x ∈ without body.freeVars params, x ∈ captures) ∧ ∀ x ∈ unmet body, x ∈ params
  | _ => True

/-- The optimizer can be trusted with the expression: all the forms it walks
are as they should be. -/
inductive Safe : AnfExpr → Prop
  | intro {e : AnfExpr} (allowed : Allowed calm lits e)
      (walked : ∀ child ∈ e.walked, Safe child) : Safe e

end

variable {calm : AnfExpr → Prop} {lits : List String} {known : Known} {e : AnfExpr} {x : String}

theorem Safe.allowed (hsafe : Safe calm lits e) : Allowed calm lits e := by
  cases hsafe with
  | intro allowed _ => exact allowed

theorem Safe.child (hsafe : Safe calm lits e) : ∀ child ∈ e.walked, Safe calm lits child := by
  cases hsafe with
  | intro _ walked => exact walked

/-! ## Known literals -/

/-- Only these names stand for known literals. -/
def Known.Within (known : Known) (lits : List String) : Prop := ∀ x, known x ≠ none → x ∈ lits

/-- Forgetting names adds no literal. -/
theorem Known.Within.remove (hknown : known.Within lits) (names : List String) :
    (known.remove names).Within lits := by
  intro x hx
  unfold Known.remove at hx
  split_ifs at hx
  · exact absurd rfl hx
  · exact hknown x hx

/-- The literals known in the body of a let. -/
theorem Known.Within.afterLet {name : String} {value : AnfExpr} (hknown : known.Within lits)
    (hname : literal? (optimized known value) ≠ none → name ∈ lits) :
    (known.afterLet name value).Within lits := by
  intro x hx
  unfold Known.afterLet Known.put at hx
  split_ifs at hx with heq
  · exact heq ▸ hname hx
  · exact hknown x hx

/-- What the optimizer makes a literal of may be one. -/
theorem Safe.mayBeLiteral (hsafe : Safe calm lits e) (hknown : known.Within lits)
    (hliteral : literal? (optimized known e) ≠ none) : mayBeLiteral lits e = true := by
  induction e using childInduction generalizing known with
  | step e ih =>
    cases e with
    | literal _ => rfl
    | letIn name value body =>
      have hafter := hknown.afterLet fun hvalue =>
        hsafe.allowed.1 (ih value (by simp) (hsafe.child _ (by simp)) hknown hvalue)
      rw [optimized_letIn] at hliteral
      split_ifs at hliteral
      · exact ih body (by simp) (hsafe.child _ (by simp)) hafter hliteral
      · exact absurd rfl hliteral
    | ifElse cond thenBranch elseBranch =>
      rw [optimized_ifElse] at hliteral
      rw [Ail.Compiler.mayBeLiteral, Bool.or_eq_true]
      split at hliteral
      · exact .inl (ih thenBranch (by simp) (hsafe.child _ (by simp)) hknown hliteral)
      · exact .inr (ih elseBranch (by simp) (hsafe.child _ (by simp)) hknown hliteral)
      · exact absurd rfl hliteral
    | call func args =>
      rw [optimized_call] at hliteral
      cases hfold : foldCall known func args with
      | none =>
        rw [hfold] at hliteral
        exact absurd rfl hliteral
      | some value =>
        have hargs := ne_none_of_foldCall hfold
        simp only [foldCall, Option.bind_eq_bind, Option.bind_eq_some_iff] at hfold
        obtain ⟨_, _, op, hop, _⟩ := hfold
        simpa [Ail.Compiler.mayBeLiteral, hop] using fun x hx => hknown x (hargs x hx)
    | _ => exact absurd rfl hliteral

theorem Safe.within_afterLet {name : String} {value body : AnfExpr}
    (hsafe : Safe calm lits (.letIn name value body)) (hknown : known.Within lits) :
    (known.afterLet name value).Within lits :=
  hknown.afterLet fun hliteral =>
    hsafe.allowed.1 ((hsafe.child value (by simp)).mayBeLiteral hknown hliteral)

/-! ## Lets that stay -/

/-- What stays impure is impure when it is optimized. -/
theorem isPure_of_staysImpure (known : Known) (himpure : staysImpure e = true) :
    isPure (optimized known e) = false := by
  induction e using childInduction generalizing known with
  | step e ih =>
    cases e with
    | letIn name value body =>
      rw [optimized_letIn]
      rcases Bool.or_eq_true_iff.1 himpure with hvalue | hbody
      · simp [removesLet, isPure, ih value (by simp) known hvalue]
      · have hbody := ih body (by simp) (known.afterLet name value) hbody
        split_ifs <;> simp [isPure, hbody]
    | ifElse cond thenBranch elseBranch =>
      obtain ⟨hthen, helse⟩ := Bool.and_eq_true_iff.1 himpure
      have hthen := ih thenBranch (by simp) known hthen
      have helse := ih elseBranch (by simp) known helse
      rw [optimized_ifElse]
      split <;> simp [isPure, hthen, helse]
    | _ => first | rfl | cases himpure

/-- A use that stays is one in the optimized expression. -/
def Stays (lits : List String) (e : AnfExpr) : Prop :=
  ∀ known name, known.Within lits → known name = none → staysUsed lits name e = true →
    usesVar name (optimized known e) = true

variable {name : String}

/-- A use that stays in one of the parts of an expression. -/
theorem any_usesVar {α : Type} {items : List α} {part : α → AnfExpr}
    (hitems : ∀ item ∈ items, Stays lits (part item)) (hknown : known.Within lits)
    (hname : known name = none) (hstays : items.any (staysUsed lits name <| part ·) = true) :
    items.any (usesVar name <| optimized known <| part ·) = true := by
  obtain ⟨item, hitem, hstays⟩ := any_eq_true.1 hstays
  exact any_eq_true.2 ⟨item, hitem, hitems item hitem known name hknown hname hstays⟩

/-- `staysUsed` is right about the optimized expression. -/
theorem Safe.stays (hsafe : Safe calm lits e) : Stays lits e := by
  induction e using childInduction with
  | step e ih =>
    intro known name hknown hname hstays
    cases e with
    | letIn binding value body =>
      have hvalue := ih value (by simp) (hsafe.child _ (by simp))
      have hbody := ih body (by simp) (hsafe.child _ (by simp))
      have hafter := hsafe.within_afterLet hknown
      rw [optimized_letIn]
      rw [staysUsed, Bool.or_eq_true, Bool.and_eq_true, Bool.and_eq_true, Bool.or_eq_true,
        bne_iff_ne] at hstays
      rcases hstays with ⟨hne, hstays⟩ | ⟨hstays, hkept⟩
      · have huses := hbody _ name hafter ((if_neg hne.symm).trans hname) hstays
        split_ifs
        · exact huses
        · simp [usesVar, huses, hne]
      · have huses := hvalue known name hknown hname hstays
        have hremoves : removesLet known binding value body = false := by
          rcases hkept with himpure | hkept
          · simp [removesLet, isPure_of_staysImpure known himpure]
          · have hliteral : known.afterLet binding value binding = none := by
              rw [Known.afterLet, Known.put, if_pos rfl]
              cases hoptimized : optimized known value with
              | literal _ =>
                rw [hoptimized] at huses
                cases huses
              | _ => rfl
            simp [removesLet, hbody _ binding hafter hliteral hkept]
        simp [hremoves, usesVar, huses]
    | ifElse cond thenBranch elseBranch =>
      have hthen := ih thenBranch (by simp) (hsafe.child _ (by simp)) known name hknown hname
      have helse := ih elseBranch (by simp) (hsafe.child _ (by simp)) known name hknown hname
      have hdecided : cond = name ∨ cond ∉ lits → decided (known cond) = none := by
        rintro (rfl | hcond)
        · rw [hname]; rfl
        · rw [not_imp_comm.1 (hknown cond) hcond]; rfl
      simp only [staysUsed, Bool.or_eq_true, Bool.and_eq_true, beq_iff_eq, decide_eq_true_eq]
        at hstays
      rw [optimized_ifElse]
      cases hcond : decided (known cond) with
      | none =>
        simp only [usesVar, Bool.or_eq_true, beq_iff_eq]
        tauto
      | some side =>
        rw [hcond] at hdecided
        cases side <;> simp at hdecided ⊢ <;> tauto
    | call func args =>
      rw [optimized_call]
      cases hfold : foldCall known func args with
      | none => exact hstays
      | some value =>
        have hmem : name ∈ args := by simpa [staysUsed, usesVar] using hstays
        exact absurd hname (ne_none_of_foldCall hfold name hmem)
    | returnWith e | loop e | breakWith e | taskGroup e | timeout _ e =>
      exact ih e (by simp) (hsafe.child _ (by simp)) known name hknown hname hstays
    | fieldUpdate _ _ e | shortCircuitAnd _ e | shortCircuitOr _ e =>
      have hchild : _ → usesVar name (optimizeExpr e known).1 = true :=
        ih e (by simp) (hsafe.child _ (by simp)) known name hknown hname
      simp only [staysUsed, Bool.or_eq_true, beq_iff_eq] at hstays
      simp only [optimized, optimizeExpr, usesVar, Bool.or_eq_true, beq_iff_eq]
      tauto
    | seq exprs | tupleNew exprs | listNew exprs =>
      simp only [staysUsed, staysUsedAll_eq] at hstays
      simp only [optimized_seq, optimized_tupleNew, optimized_listNew, usesVar, usesVarAll_eq,
        any_map]
      exact any_usesVar (fun e he => ih e he (hsafe.child e he)) hknown hname hstays
    | matchOn scrutinee arms =>
      simp only [staysUsed, staysUsedArms_eq, Bool.or_eq_true] at hstays
      simp only [optimized_matchOn, usesVar, usesVarArms_eq, any_map, Bool.or_eq_true]
      exact hstays.imp_right (any_usesVar (fun arm harm => ih _ (mem_map_of_mem harm)
        (hsafe.child _ (mem_map_of_mem harm))) hknown hname)
    | recordNew fields =>
      simp only [staysUsed, staysUsedArms_eq] at hstays
      simp only [optimized_recordNew, usesVar, usesVarArms_eq, any_map]
      exact any_usesVar (fun field hfield => ih _ (mem_map_of_mem hfield)
        (hsafe.child _ (mem_map_of_mem hfield))) hknown hname hstays
    | variantNew _ payload =>
      cases payload with
      | none => cases hstays
      | some e =>
        rw [optimized_variantNew]
        exact ih e (by simp) (hsafe.child _ (by simp)) known name hknown hname hstays
    | lambda params captures body =>
      obtain ⟨hparams, hstays⟩ := Bool.and_eq_true_iff.1 hstays
      have hremoved : known.remove params name = none := by
        unfold Known.remove
        split_ifs <;> simp [hname]
      have huses := ih body (by simp) (hsafe.child _ (by simp)) _ name (hknown.remove params)
        hremoved hstays
      simp only [optimized_lambda, usesVar, huses, hparams, Bool.and_true, Bool.or_true]
    | _ => exact hstays

/-! ## Durations -/

/-- A free name is found by `usesVar` or is the duration of a timeout. -/
def Found (x : String) (e : AnfExpr) : Prop :=
  x ∈ e.freeVars → usesVar x e = true ∨ TimesOut x e

/-- `usesVar` overlooks a free name only where it is the duration of a
timeout. -/
theorem usesVar_of_mem_freeVars (x : String) (e : AnfExpr) : Found x e := by
  induction e using childInduction with
  | step e ih =>
    intro hfree
    have inside {child : AnfExpr} (hchild : child ∈ e.children) : TimesOut x child → TimesOut x e :=
      .inside hchild
    cases e with
    | letIn name value body =>
      have hvalue := ih value (by simp)
      have hbody := ih body (by simp)
      have hinside := @inside value (by simp)
      have hinside' := @inside body (by simp)
      unfold Found at hvalue hbody
      simp only [freeVars, mem_append, mem_without, mem_singleton] at hfree
      simp only [usesVar, Bool.or_eq_true, Bool.and_eq_true, bne_iff_ne]
      tauto
    | ifElse cond thenBranch elseBranch =>
      have hthen := ih thenBranch (by simp)
      have helse := ih elseBranch (by simp)
      have hinside := @inside thenBranch (by simp)
      have hinside' := @inside elseBranch (by simp)
      unfold Found at hthen helse
      simp only [freeVars, mem_cons, mem_append] at hfree
      simp only [usesVar, Bool.or_eq_true, beq_iff_eq]
      tauto
    | timeout duration e =>
      rcases mem_cons.1 hfree with rfl | hfree
      · exact .inr (.here e)
      · exact (ih e (by simp) hfree).imp_right (inside (by simp))
    | returnWith e | loop e | breakWith e | taskGroup e =>
      exact (ih e (by simp) hfree).imp_right (inside (by simp))
    | fieldUpdate _ _ e | whileLoop _ e | shortCircuitAnd _ e | shortCircuitOr _ e =>
      have hchild := ih e (by simp)
      have hinside := @inside e (by simp)
      unfold Found at hchild
      simp only [freeVars, mem_cons] at hfree
      simp only [usesVar, Bool.or_eq_true, beq_iff_eq]
      tauto
    | forEach binding collection body =>
      have hchild := ih body (by simp)
      have hinside := @inside body (by simp)
      unfold Found at hchild
      simp only [freeVars, mem_cons, mem_without] at hfree
      simp only [usesVar, Bool.or_eq_true, Bool.and_eq_true, beq_iff_eq, bne_iff_ne]
      tauto
    | seq exprs | tupleNew exprs | listNew exprs =>
      simp only [freeVars, freeVarsAll_eq, mem_flatMap] at hfree
      simp only [usesVar, usesVarAll_eq, any_eq_true]
      obtain ⟨e, he, hfree⟩ := hfree
      exact (ih e he hfree).imp (⟨e, he, ·⟩) (inside he)
    | matchOn scrutinee arms =>
      simp only [freeVars, freeVarsArms_eq, mem_cons, mem_flatMap, mem_without] at hfree
      simp only [usesVar, usesVarArms_eq, Bool.or_eq_true, beq_iff_eq, any_eq_true]
      obtain rfl | ⟨arm, harm, hfree, -⟩ := hfree
      · exact .inl (.inl rfl)
      · exact (ih arm.2 (mem_map_of_mem harm) hfree).imp (.inr ⟨arm, harm, ·⟩)
          (inside (mem_map_of_mem harm))
    | recordNew fields =>
      simp only [freeVars, freeVarsFields_eq, mem_flatMap] at hfree
      simp only [usesVar, usesVarArms_eq, any_eq_true]
      obtain ⟨field, hfield, hfree⟩ := hfree
      exact (ih field.2 (mem_map_of_mem hfield) hfree).imp (⟨field, hfield, ·⟩)
        (inside (mem_map_of_mem hfield))
    | select branches =>
      simp only [freeVars, freeVarsBranches_eq, mem_flatMap, mem_cons, mem_without] at hfree
      simp only [usesVar, usesVarBranches_eq, any_eq_true, Bool.or_eq_true, beq_iff_eq]
      obtain ⟨branch, hbranch, rfl | ⟨hfree, -⟩⟩ := hfree
      · exact .inl ⟨branch, hbranch, .inl rfl⟩
      · exact (ih branch.2.2 (mem_map_of_mem hbranch) hfree).imp (⟨branch, hbranch, .inr ·⟩)
          (inside (mem_map_of_mem hbranch))
    | variantNew _ payload =>
      cases payload with
      | none => cases hfree
      | some e => exact (ih e (by simp) hfree).imp_right (inside (by simp))
    | lambda params captures body =>
      have hchild := ih body (by simp)
      have hinside := @inside body (by simp)
      unfold Found at hchild
      simp only [freeVars, mem_append, mem_without] at hfree
      simp only [usesVar, Bool.or_eq_true, Bool.and_eq_true, Bool.not_eq_true', any_beq',
        contains_eq_mem, decide_eq_true_eq, decide_eq_false_iff_not]
      tauto
    | mapNew entries =>
      obtain ⟨entry, hentry, hx⟩ := mem_flatMap.1 hfree
      refine .inl (any_eq_true.2 ⟨entry, hentry, ?_⟩)
      simp only [mem_cons] at hx
      simp only [Bool.or_eq_true, beq_iff_eq]
      tauto
    | literal _ | continueLoop | channelNew _ | assume _ _ | abort _ | placeholder =>
      cases hfree
    | _ =>
      -- leaves: both analyses list the same atoms
      left
      simp only [freeVars, mem_cons] at hfree
      simp only [usesVar, Bool.or_eq_true, beq_iff_eq, any_beq', contains_eq_mem, decide_eq_true_eq]
      tauto

/-- A duration stands at the top or in a part. -/
theorem timesOut_iff :
    TimesOut x e ↔ (∃ body, e = .timeout x body) ∨ ∃ child ∈ e.children, TimesOut x child := by
  constructor
  · rintro (⟨body⟩ | ⟨hchild, hinside⟩)
    · exact .inl ⟨body, rfl⟩
    · exact .inr ⟨_, hchild, hinside⟩
  · rintro (⟨body, rfl⟩ | ⟨child, hchild, hinside⟩)
    · exact .here body
    · exact .inside hchild hinside

/-- The optimizer makes no timeouts. -/
theorem timesOut_of_optimized (htimes : TimesOut x (optimized known e)) : TimesOut x e := by
  induction e using childInduction generalizing known with
  | step e ih =>
    have inside {known : Known} (child : AnfExpr) (hchild : child ∈ e.children)
        (htimes : TimesOut x (optimized known child)) : TimesOut x e :=
      .inside hchild (ih child hchild htimes)
    cases e with
    | letIn name value body =>
      rw [optimized_letIn] at htimes
      split_ifs at htimes
      · exact inside body (by simp) htimes
      · rcases timesOut_iff.1 htimes with ⟨_, heq⟩ | ⟨child, hchild, hinside⟩
        · cases heq
        · simp only [children, mem_cons, not_mem_nil, or_false] at hchild
          rcases hchild with rfl | rfl
          · exact inside value (by simp) hinside
          · exact inside body (by simp) hinside
    | ifElse cond thenBranch elseBranch =>
      rw [optimized_ifElse] at htimes
      split at htimes
      · exact inside thenBranch (by simp) htimes
      · exact inside elseBranch (by simp) htimes
      · rcases timesOut_iff.1 htimes with ⟨_, heq⟩ | ⟨child, hchild, hinside⟩
        · cases heq
        · simp only [children, mem_cons, not_mem_nil, or_false] at hchild
          rcases hchild with rfl | rfl
          · exact inside thenBranch (by simp) hinside
          · exact inside elseBranch (by simp) hinside
    | call func args =>
      rw [optimized_call] at htimes
      cases hfold : foldCall known func args with
      | none => rwa [hfold] at htimes
      | some value =>
        rw [hfold] at htimes
        rcases timesOut_iff.1 htimes with ⟨_, heq⟩ | ⟨child, hchild, hinside⟩
        · cases heq
        · cases hchild
    | timeout duration e =>
      rcases timesOut_iff.1 htimes with ⟨_, heq⟩ | ⟨child, hchild, hinside⟩
      · cases heq
        exact .here e
      · obtain rfl := mem_singleton.1 hchild
        exact inside e (by simp) hinside
    | returnWith e | loop e | breakWith e | taskGroup e | fieldUpdate _ _ e | shortCircuitAnd _ e
    | shortCircuitOr _ e | lambda _ _ e =>
      rcases timesOut_iff.1 htimes with ⟨_, heq⟩ | ⟨child, hchild, hinside⟩
      · cases heq
      · obtain rfl := mem_singleton.1 hchild
        exact inside e (by simp) hinside
    | seq exprs | tupleNew exprs | listNew exprs =>
      simp only [optimized_seq, optimized_tupleNew, optimized_listNew] at htimes
      rcases timesOut_iff.1 htimes with ⟨_, heq⟩ | ⟨child, hchild, hinside⟩
      · cases heq
      · obtain ⟨e, he, rfl⟩ := mem_map.1 hchild
        exact inside _ he hinside
    | recordNew arms | matchOn _ arms =>
      simp only [optimized_recordNew, optimized_matchOn] at htimes
      rcases timesOut_iff.1 htimes with ⟨_, heq⟩ | ⟨child, hchild, hinside⟩
      · cases heq
      · simp only [children, map_map, mem_map, Function.comp] at hchild
        obtain ⟨arm, harm, rfl⟩ := hchild
        exact inside _ (mem_map_of_mem harm) hinside
    | variantNew _ payload =>
      rw [optimized_variantNew] at htimes
      rcases timesOut_iff.1 htimes with ⟨_, heq⟩ | ⟨child, hchild, hinside⟩
      · cases heq
      · simp only [children, Option.toList_map, mem_map] at hchild
        obtain ⟨e, he, rfl⟩ := hchild
        exact inside _ he hinside
    | _ => exact htimes

/-! ## Free names and captures -/

/-- Dropping a let leaves its name unused in what remains. -/
theorem notMem_freeVars_of_removesLet {value body : AnfExpr} (htimes : ¬ TimesOut name body)
    (hremoves : removesLet known name value body = true) :
    name ∉ (optimized (known.afterLet name value) body).freeVars := by
  intro hfree
  rcases usesVar_of_mem_freeVars name _ hfree with huses | hinside
  · rw [removesLet, huses, Bool.not_true, Bool.and_false] at hremoves
    exact Bool.false_ne_true hremoves
  · exact htimes (timesOut_of_optimized hinside)

/-- A name that is free after optimizing was free before, and is met by the
capture walk unless the walk passes it over in the original. -/
def Covered (e : AnfExpr) : Prop :=
  ∀ known x, x ∈ (optimized known e).freeVars →
    x ∈ e.freeVars ∧ (x ∈ (optimized known e).captureUses ∨ x ∈ unmet e)

/-- `unmet` is right about the optimized expression. -/
theorem Safe.covered (hsafe : Safe calm lits e) : Covered e := by
  induction e using childInduction with
  | step e ih =>
    intro known x hfree
    cases e with
    | letIn name value body =>
      have hvalue := ih value (by simp) (hsafe.child _ (by simp)) known x
      have hbody := ih body (by simp) (hsafe.child _ (by simp)) (known.afterLet name value) x
      rw [optimized_letIn] at hfree ⊢
      simp only [freeVars, unmet, mem_append, mem_without, mem_singleton]
      split_ifs at hfree ⊢ with hremoves
      · have hne : x ≠ name := fun heq =>
          notMem_freeVars_of_removesLet hsafe.allowed.2.1 hremoves (heq ▸ hfree)
        tauto
      · simp only [freeVars, captureUses, mem_append, mem_without, mem_singleton] at hfree ⊢
        tauto
    | ifElse cond thenBranch elseBranch =>
      have hthen := ih thenBranch (by simp) (hsafe.child _ (by simp)) known x
      have helse := ih elseBranch (by simp) (hsafe.child _ (by simp)) known x
      rw [optimized_ifElse] at hfree ⊢
      simp only [freeVars, unmet, mem_cons, mem_append]
      split at hfree
      · tauto
      · tauto
      · simp only [freeVars, captureUses, mem_cons, mem_append] at hfree ⊢
        tauto
    | call func args =>
      rw [optimized_call] at hfree ⊢
      cases hfold : foldCall known func args with
      | none =>
        rw [hfold] at hfree
        exact ⟨hfree, .inl hfree⟩
      | some value =>
        rw [hfold] at hfree
        cases hfree
    | returnWith e | loop e | breakWith e =>
      exact ih e (by simp) (hsafe.child _ (by simp)) known x hfree
    | fieldUpdate _ _ e | shortCircuitAnd _ e | shortCircuitOr _ e =>
      rcases mem_cons.1 hfree with rfl | hfree
      · exact ⟨.head _, .inr (.head _)⟩
      · obtain ⟨hbefore, hmet⟩ := ih e (by simp) (hsafe.child _ (by simp)) known x hfree
        exact ⟨.tail _ hbefore, hmet.imp_right (.tail _)⟩
    | taskGroup e =>
      have hbefore := (ih e (by simp) (hsafe.child _ (by simp)) known x hfree).1
      exact ⟨hbefore, .inr hbefore⟩
    | timeout duration e =>
      rcases mem_cons.1 hfree with rfl | hfree
      · exact ⟨.head _, .inr (.head _)⟩
      · have hbefore := (ih e (by simp) (hsafe.child _ (by simp)) known x hfree).1
        exact ⟨.tail _ hbefore, .inr (.tail _ hbefore)⟩
    | seq exprs | tupleNew exprs | listNew exprs =>
      simp only [optimized_seq, optimized_tupleNew, optimized_listNew, freeVars, captureUses, unmet,
        freeVarsAll_eq, captureUsesAll_eq, unmetAll_eq, flatMap_map, mem_flatMap] at hfree ⊢
      obtain ⟨e, he, hfree⟩ := hfree
      obtain ⟨hbefore, hmet⟩ := ih e he (hsafe.child e he) known x hfree
      exact ⟨⟨e, he, hbefore⟩, hmet.imp (⟨e, he, ·⟩) (⟨e, he, ·⟩)⟩
    | matchOn scrutinee arms =>
      simp only [optimized_matchOn, freeVars, captureUses, unmet, freeVarsArms_eq,
        captureUsesArms_eq, unmetArms_eq, flatMap_map, mem_cons, mem_flatMap, mem_without] at hfree ⊢
      obtain rfl | ⟨arm, harm, hfree, hbound⟩ := hfree
      · exact ⟨.inl rfl, .inr (.inl rfl)⟩
      · obtain ⟨hbefore, hmet⟩ := ih arm.2 (mem_map_of_mem harm)
          (hsafe.child _ (mem_map_of_mem harm)) known x hfree
        exact ⟨.inr ⟨arm, harm, hbefore, hbound⟩,
          hmet.imp (⟨arm, harm, ·, hbound⟩) (.inr ⟨arm, harm, ·, hbound⟩)⟩
    | recordNew fields =>
      simp only [optimized_recordNew, freeVars, captureUses, unmet, freeVarsFields_eq,
        captureUsesFields_eq, unmetFields_eq, flatMap_map, mem_flatMap] at hfree ⊢
      obtain ⟨field, hfield, hfree⟩ := hfree
      obtain ⟨hbefore, hmet⟩ := ih field.2 (mem_map_of_mem hfield)
        (hsafe.child _ (mem_map_of_mem hfield)) known x hfree
      exact ⟨⟨field, hfield, hbefore⟩, hmet.imp (⟨field, hfield, ·⟩) (⟨field, hfield, ·⟩)⟩
    | variantNew _ payload =>
      cases payload with
      | none => cases hfree
      | some e =>
        rw [optimized_variantNew] at hfree ⊢
        exact ih e (by simp) (hsafe.child _ (by simp)) known x hfree
    | lambda params captures body =>
      have hbody := ih body (by simp) (hsafe.child _ (by simp)) (known.remove params) x
      rw [optimized_lambda] at hfree ⊢
      have hfree : x ∈ without (optimized (known.remove params) body).freeVars params :=
        (mem_append.1 hfree).elim mem_lambdaCaptures id
      obtain ⟨hfree, hparams⟩ := mem_without.1 hfree
      obtain ⟨hbefore, hmet⟩ := hbody hfree
      refine ⟨mem_append_right _ (mem_without.2 ⟨hbefore, hparams⟩), hmet.imp (fun hmet => ?_)
        fun hunmet => mem_without.2 ⟨hunmet, hparams⟩⟩
      have hcaptured : x ∈ lambdaCaptures params (optimized (known.remove params) body) :=
        mem_collectFreeVars.2 ⟨hmet, hparams⟩
      rw [captureUses, if_neg (by simpa using ne_nil_of_mem hcaptured)]
      exact hcaptured
    | _ => exact ⟨hfree, mem_append.1 (AnfExpr.uses_perm _ |>.symm.subset hfree)⟩

/-- What the optimized body of a lambda reads beyond its parameters was
listed as a capture before, and is after. -/
theorem Safe.captured {params captures : List String} {body : AnfExpr}
    (hsafe : Safe calm lits (.lambda params captures body))
    (hfree : x ∈ without (optimized (known.remove params) body).freeVars params) :
    x ∈ captures ∧ x ∈ lambdaCaptures params (optimized (known.remove params) body) := by
  obtain ⟨hlisted, hunmet⟩ := hsafe.allowed
  obtain ⟨hfree, hparams⟩ := mem_without.1 hfree
  obtain ⟨hbefore, hmet⟩ := (hsafe.child body (by simp)).covered _ x hfree
  refine ⟨hlisted x (mem_without.2 ⟨hbefore, hparams⟩), mem_collectFreeVars.2 ⟨?_, hparams⟩⟩
  exact hmet.resolve_right fun hmem => hparams (hunmet x hmem)

end Ail.Compiler
