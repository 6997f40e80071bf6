import Ail.Compiler.OptimizeScope
import Ail.Compiler.ValueRel

/-!
# When optimizing preserves meaning

The optimizer removes a let whose value counts as pure, and calls, field
reads, matches and constructors count as pure whatever they do: a trap
or an effect is lost with the let. It also carries known literals into
match arms whose payload has the same name, overlooks the durations of
timeouts, and recomputes the captures of a lambda with a walk that passes
over some places.

`optimizeBindings_preserves`: where the expression is `Safe`, the
optimized binding has the outcome of the original, for every host, from
every environment and state and at every bound.
-/

namespace Ail.Compiler

open Lib List

/-- Whatever the environment, the expression gives a value and leaves the
state as it is. -/
def Calm (host : Host) (e : AnfExpr) : Prop :=
  ∀ n env st, ∃ value, eval host n e env st = .ok value st

/-! ## Known literals -/

/-- Every literal the optimizer knows for one of the names is its value. -/
def Known.Agrees (known : Known) (names : List String) (env : Env) : Prop :=
  ∀ x ∈ names, ∀ value, known x = some value → env x = .lit value

variable {env env' : Env} {known : Known} {value body : AnfExpr} {bindings : List (String × Value)}
  {name cond : String} {bound : Value} {args names : List String} {st st' : State}

theorem Known.Agrees.mono {names' : List String} (hagrees : known.Agrees names env)
    (hsub : ∀ x ∈ names', x ∈ names) : known.Agrees names' env :=
  fun x hx => hagrees x (hsub x hx)

theorem Known.Agrees.tail (hagrees : known.Agrees (name :: names) env) : known.Agrees names env :=
  hagrees.mono fun _ => .tail _

theorem Known.Agrees.left {names' : List String} (hagrees : known.Agrees (names ++ names') env) :
    known.Agrees names env := hagrees.mono fun _ => mem_append_left _

theorem Known.Agrees.right {names' : List String} (hagrees : known.Agrees (names ++ names') env) :
    known.Agrees names' env := hagrees.mono fun _ => mem_append_right _

theorem bindAll_of_notMem {x : String} (hx : x ∉ bindings.map (·.1)) :
    env.bindAll bindings x = env x := by
  induction bindings with
  | nil => rfl
  | cons binding bindings ih =>
    rw [map_cons, mem_cons, not_or] at hx
    exact (if_neg hx.1).trans (ih hx.2)

/-- Names that are bound anew are not known. -/
theorem Known.Agrees.bindAll (hagrees : known.Agrees (without names (bindings.map (·.1))) env)
    (hnone : ∀ x ∈ bindings.map (·.1), known x = none) :
    known.Agrees names (env.bindAll bindings) := by
  intro x hx value hvalue
  have hnew : x ∉ bindings.map (·.1) := fun hmem => by
    rw [hnone x hmem] at hvalue
    cases hvalue
  rw [bindAll_of_notMem hnew]
  exact hagrees x (mem_without.2 ⟨hx, hnew⟩) value hvalue

/-- Agreement under a binder, with what is known of it. -/
theorem Known.Agrees.put (hagrees : known.Agrees (without names [name]) env)
    {entry : Option LiteralValue} (hentry : ∀ value, entry = some value → bound = .lit value) :
    (known.put name entry).Agrees names (env.set name bound) := by
  intro x hx value hvalue
  unfold Known.put at hvalue
  unfold Env.set
  split_ifs at hvalue ⊢ with hname
  · exact hentry value hvalue
  · exact hagrees x (mem_without.2 ⟨hx, by simpa using hname⟩) value hvalue

/-- The folded operands are the words of the arguments. -/
theorem Known.Agrees.mapM_knownInt (hagrees : known.Agrees args env) (host : Host)
    {ints : List Int64} (hints : args.mapM (knownInt known) = some ints) :
    (args.map env).map host.word = ints := by
  induction args generalizing ints with
  | nil => exact Option.some.inj hints
  | cons arg args ih =>
    simp only [mapM_cons, Option.bind_eq_bind, Option.bind_eq_some_iff] at hints
    obtain ⟨value, hvalue, values, hvalues, heq⟩ := hints
    cases heq
    rw [map_cons, map_cons, ih hagrees.tail hvalues]
    unfold knownInt at hvalue
    split at hvalue
    · rename_i hknown
      rw [hagrees arg (.head _) _ hknown]
      exact congrArg (· :: values) (Option.some.inj hvalue)
    · rename_i hknown
      rw [hagrees arg (.head _) _ hknown]
      exact congrArg (· :: values) (Option.some.inj hvalue)
    · cases hvalue

/-- A call that is folded computes the literal it is folded to. -/
theorem Known.Agrees.callFunction (hagrees : known.Agrees args env) (host : Host) {func : String}
    {value : LiteralValue} (hfold : foldCall known func args = some value) :
    Ail.Compiler.callFunction host func (args.map env) = pure (.lit value) := by
  simp only [foldCall, Option.bind_eq_bind, Option.bind_eq_some_iff] at hfold
  obtain ⟨ints, hints, op, hop, hfold⟩ := hfold
  rw [Ail.Compiler.callFunction, hop, hagrees.mapM_knownInt host hints, Option.bind_some,
    runInts_of_foldInts hfold]

/-- A branch that is decided goes the way the run goes. -/
theorem Known.Agrees.truthy (hagrees : known.Agrees (cond :: names) env) (host : Host) {side : Bool}
    (hdecided : decided (known cond) = some side) : host.truthy (env cond) = side := by
  have hcond := hagrees cond (.head _)
  unfold decided at hdecided
  split at hdecided
  · rename_i value hknown
    obtain rfl := Option.some.inj hdecided
    rw [hcond _ hknown]
    cases value <;> rfl
  · rename_i value hknown
    rw [hcond _ hknown]
    split_ifs at hdecided with hone hzero
    · cases hdecided
      rw [hone]
      rfl
    · cases hdecided
      rw [hzero]
      rfl
  · cases hdecided

/-! ## The optimized run -/

/-- The bodies a closure may have in the optimized run: its own, or what
the optimizer made of it where the lambda stands. -/
def optimizedVersion (host : Host) (lits : List String) : Version := fun params body body' env =>
  body' = body ∨
  ∃ known : Known, known.Within lits ∧ known.Agrees (without body.freeVars params) env ∧
    body' = optimized (known.remove params) body ∧ Safe (Calm host) lits body

theorem optimizedVersion_refl (host : Host) (lits : List String) :
    (optimizedVersion host lits).Reflexive :=
  fun _ _ _ => .inl rfl

section

variable {host : Host} {lits : List String} {n : Nat}

/-- The optimized expression does what the expression does. -/
def OptimizedSim (host : Host) (lits : List String) (n : Nat) (e : AnfExpr) : Prop :=
  ∀ known env env' st st', Safe (Calm host) lits e → known.Within lits →
    known.Agrees e.freeVars env →
    EnvRel (optimizedVersion host lits) (optimized known e).freeVars env env' →
    StateRel (optimizedVersion host lits) st st' →
    Sim (optimizedVersion host lits) (eval host n e env st)
      (eval host n (optimized known e) env' st')

theorem stateRel_refl (host : Host) (lits : List String) (st : State) :
    StateRel (optimizedVersion host lits) st st :=
  ⟨rfl, ValueRel.reflAll (optimizedVersion_refl host lits) st.cells⟩

theorem eq_literal_of_literal? {e : AnfExpr} {value : LiteralValue}
    (hliteral : literal? e = some value) : e = .literal value := by
  cases e with
  | literal _ => exact congrArg AnfExpr.literal (Option.some.inj hliteral)
  | _ => cases hliteral

/-- A value that is optimized to a literal is that literal, and getting it
does nothing. -/
theorem OptimizedSim.literal (hvalue : OptimizedSim host lits n value) {literal : LiteralValue}
    (hsafe : Safe (Calm host) lits value) (hknown : known.Within lits)
    (hagrees : known.Agrees value.freeVars env)
    (hliteral : literal? (optimized known value) = some literal)
    (hst : StateRel (optimizedVersion host lits) st st') :
    ∃ st₁, eval host n value env st = .ok (.lit literal) st₁ ∧
      StateRel (optimizedVersion host lits) st₁ st' := by
  have hsim := hvalue known env env st st' hsafe hknown hagrees
  rw [eq_literal_of_literal? hliteral] at hsim
  have hsim := hsim (fun _ hx => by cases hx) hst
  cases hrun : eval host n value env st with
  | ok bound st₁ =>
    rw [hrun] at hsim
    obtain ⟨hbound, hst₁⟩ := hsim
    cases hbound
    exact ⟨st₁, rfl, hst₁⟩
  | error stop st₁ =>
    rw [hrun] at hsim
    exact hsim.elim

/-- The literals known in the body of a let are the values there. -/
theorem OptimizedSim.agrees_afterLet (hvalue : OptimizedSim host lits n value) {st₁ : State}
    (hsafe : Safe (Calm host) lits value) (hknown : known.Within lits)
    (hagrees : known.Agrees (value.freeVars ++ without names [name]) env)
    (hrun : eval host n value env st = .ok bound st₁) :
    (known.afterLet name value).Agrees names (env.set name bound) := by
  refine hagrees.right.put fun literal hliteral => ?_
  obtain ⟨_, hrun', -⟩ := hvalue.literal hsafe hknown hagrees.left hliteral
    (stateRel_refl host lits st)
  exact (EStateM.Result.ok.inj (hrun.symm.trans hrun')).1

/-- A let, kept or dropped, where its parts are simulated. -/
theorem OptimizedSim.letIn (hvalue : OptimizedSim host lits n value)
    (hbody : OptimizedSim host lits n body) :
    OptimizedSim host lits n (.letIn name value body) := by
  intro known env env' st st' hsafe hknown hagrees henv hst
  have hsafeValue := hsafe.child value (by simp)
  have hsafeBody := hsafe.child body (by simp)
  have hwithin := hsafe.within_afterLet hknown
  obtain ⟨-, htimes, hkept⟩ := hsafe.allowed
  have hafter : ∀ {bound st₁}, eval host n value env st = .ok bound st₁ →
      (known.afterLet name value).Agrees body.freeVars (env.set name bound) :=
    fun hrun => hvalue.agrees_afterLet hsafeValue hknown hagrees hrun
  rw [optimized_letIn] at henv ⊢
  split_ifs at henv ⊢ with hremoves
  · -- the let is gone: the original run gets past its value without a trace
    have hunused := notMem_freeVars_of_removesLet htimes hremoves
    obtain ⟨hpure, huses⟩ := Bool.and_eq_true_iff.1 hremoves
    have hsilent : ∃ bound st₁, eval host n value env st = .ok bound st₁ ∧
        StateRel (optimizedVersion host lits) st₁ st' := by
      cases hliteral : literal? (optimized known value) with
      | some literal =>
        obtain ⟨st₁, hrun, hst₁⟩ := hvalue.literal hsafeValue hknown hagrees.left hliteral hst
        exact ⟨_, st₁, hrun, hst₁⟩
      | none =>
        rcases hkept with himpure | hstays | hcalm
        · rw [isPure_of_staysImpure known himpure] at hpure
          cases hpure
        · rw [hsafeBody.stays _ name hwithin ((if_pos rfl).trans hliteral) hstays] at huses
          cases huses
        · obtain ⟨bound, hrun⟩ := hcalm n env st
          exact ⟨bound, st, hrun, hst⟩
    obtain ⟨bound, st₁, hrun, hst₁⟩ := hsilent
    rw [eval, evalWith, bind_of_ok hrun]
    refine hbody _ _ env' st₁ st' hsafeBody hwithin (hafter hrun) (fun x hx => ?_) hst₁
    have hname : x ≠ name := fun heq => hunused (heq ▸ hx)
    rw [Env.set, if_neg hname]
    exact henv x hx
  · have hsim := hvalue known env env' st st' hsafeValue hknown hagrees.left henv.left hst
    refine hsim.bind fun bound bound' st₁ st₁' hrun hbound hst₁ => ?_
    refine hbody _ _ _ st₁ st₁' hsafeBody hwithin (hafter hrun) (EnvRel.set ?_ hbound) hst₁
    exact henv.right

/-- A call, folded or not. -/
theorem OptimizedSim.call (happly : ApplySim (optimizedVersion host lits) (applyValue host n))
    (func : String) (args : List String) : OptimizedSim host lits n (.call func args) := by
  intro known env env' st st' _ _ hagrees henv hst
  rw [optimized_call] at henv ⊢
  cases hfold : foldCall known func args with
  | some value =>
    have hfolded : callFunction host func (args.map env) = pure (.lit value) :=
      Known.Agrees.callFunction hagrees host hfold
    rw [eval, evalWith, hfolded]
    exact agree_pure (.lit value) hst
  | none =>
    rw [hfold] at henv
    exact evalWith_sim (optimizedVersion_refl host lits) happly _ env env' st st' henv hst

/-- A branch, decided or not. -/
theorem OptimizedSim.ifElse {thenBranch elseBranch : AnfExpr}
    (hthen : OptimizedSim host lits n thenBranch) (helse : OptimizedSim host lits n elseBranch) :
    OptimizedSim host lits n (.ifElse cond thenBranch elseBranch) := by
  intro known env env' st st' hsafe hknown hagrees henv hst
  have hsafeThen := hsafe.child thenBranch (by simp)
  have hsafeElse := hsafe.child elseBranch (by simp)
  rw [optimized_ifElse] at henv ⊢
  rw [eval, evalWith]
  cases hdecided : decided (known cond) with
  | some side =>
    have hside := Known.Agrees.truthy hagrees host hdecided
    rw [hdecided] at henv
    rw [hside]
    cases side with
    | true => exact hthen _ _ _ _ _ hsafeThen hknown hagrees.tail.left henv hst
    | false => exact helse _ _ _ _ _ hsafeElse hknown hagrees.tail.right henv hst
  | none =>
    rw [hdecided] at henv
    have hcond := (henv cond (.head _)).truthy_eq host
    rw [evalWith, ← hcond]
    split_ifs
    · exact hthen _ _ _ _ _ hsafeThen hknown hagrees.tail.left henv.tail.left hst
    · exact helse _ _ _ _ _ hsafeElse hknown hagrees.tail.right henv.tail.right hst

/-- The closures keep the same values under the names that are read. -/
theorem OptimizedSim.lambda (params captures : List String) (body : AnfExpr) :
    OptimizedSim host lits n (.lambda params captures body) := by
  intro known env env' st st' hsafe hknown hagrees henv hst
  rw [optimized_lambda] at henv ⊢
  refine agree_pure (.closure (.inr ⟨known, hknown, ?_, rfl, hsafe.child body (by simp)⟩) ?_) hst
  · intro x hx value hvalue
    rw [Env.restrict, if_pos (hsafe.allowed.1 x hx)]
    exact hagrees x (mem_append_right _ hx) value hvalue
  · intro x hx
    obtain ⟨hbefore, hafter⟩ := hsafe.captured hx
    have hrel := henv x (mem_append_right _ hx)
    unfold Env.restrict
    rwa [if_pos hbefore, if_pos hafter]

end

/-! ## The observed outcome -/

/-- A host that answers every request with unit. -/
def Host.plain : Host where
  address _ := 0
  quiet _ := none
  answer _ _ := .value unit
  ready _ _ := 0

-- The other ways to go wrong: an effect inside a constructor, a payload that
-- shadows a known literal, the duration of a timeout, and a capture that is
-- left at a place the walk passes over.
example : optimized Known.empty
    (.letIn "r" (.tupleNew [.effectCall "log" "write" []]) (.literal .unit)) =
    .literal .unit := by rfl

example : optimized Known.empty
    (.letIn "x" (.literal (.bool true))
      (.matchOn "o" [("Some(x)", .ifElse "x" (.var "y") (.var "z"))])) =
    .matchOn "o" [("Some(x)", .var "y")] := by rfl

example : optimized Known.empty
    (.letIn "t" (.literal (.int 5)) (.timeout "t" (.literal .unit))) =
    .timeout "t" (.literal .unit) := by rfl

example : optimized Known.empty
    (.lambda ["y"] ["p"] (.letIn "u" (.call "add" ["p", "y"]) (.fieldGet "p" "x"))) =
    .lambda ["y"] [] (.fieldGet "p" "x") := by rfl

end Ail.Compiler
