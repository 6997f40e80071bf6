import Ail.Compiler.Semantics

/-!
# Two runs side by side

Values of two runs are related when they differ only in the bodies of
closures: `Version params body body' env` says which bodies may stand for
one another, a closure's environment being `env` in the first run, and
the environments need only agree on the names the second body uses.
Related values look alike to the host, so every operation of the
semantics takes related inputs to related outcomes. The last result of
the module says so of a whole expression, run in two environments that
are related on its free variables (`evalWith_sim`).
-/

namespace Ail.Compiler

open Lib List

/-- Which bodies of closures may stand for one another. -/
abbrev Version := List String → AnfExpr → AnfExpr → Env → Prop

section

variable {version : Version} {args args' parts values values' : List Value} {pattern : String}
  {es : List AnfExpr} {branches : List (String × String × AnfExpr)}

inductive ValueRel (version : Version) : Value → Value → Prop
  | lit (value : LiteralValue) : ValueRel version (.lit value) (.lit value)
  | data {kind : DataKind} {parts parts' : List Value} :
    List.Forall₂ (ValueRel version) parts parts' →
    ValueRel version (.data kind parts) (.data kind parts')
  | function (name : String) : ValueRel version (.function name) (.function name)
  | closure {params : List String} {body body' : AnfExpr} {env env' : Env} :
    version params body body' env →
    (∀ x ∈ without body'.freeVars params, ValueRel version (env x) (env' x)) →
    ValueRel version (.closure params body env) (.closure params body' env')
  | cell (address : Nat) : ValueRel version (.cell address) (.cell address)

/-- Every body is a version of itself. -/
def Version.Reflexive (version : Version) : Prop := ∀ params body env, version params body body env

mutual

/-- A value is related to itself. -/
theorem ValueRel.refl (hrefl : version.Reflexive) : ∀ value, ValueRel version value value
  | .lit value => .lit value
  | .data _ parts => .data (ValueRel.reflAll hrefl parts)
  | .function name => .function name
  | .closure params body env => .closure (hrefl params body env) fun x _ => .refl hrefl (env x)
  | .cell address => .cell address

theorem ValueRel.reflAll (hrefl : version.Reflexive) :
    ∀ values, List.Forall₂ (ValueRel version) values values
  | [] => .nil
  | value :: values => .cons (ValueRel.refl hrefl value) (ValueRel.reflAll hrefl values)

end

mutual

/-- Related values look alike from the outside. -/
theorem ValueRel.view_eq : ∀ {value value' : Value}, ValueRel version value value' →
    value.view = value'.view
  | .lit _, _, hrel => by cases hrel; rfl
  | .data kind parts, _, hrel => by
    cases hrel with
    | data hparts => rw [Value.view, Value.view, ValueRel.viewAll_eq hparts]
  | .function _, _, hrel => by cases hrel; rfl
  | .closure _ _ _, _, hrel => by cases hrel; rfl
  | .cell _, _, hrel => by cases hrel; rfl

theorem ValueRel.viewAll_eq : ∀ {values values' : List Value},
    List.Forall₂ (ValueRel version) values values' → Value.viewAll values = Value.viewAll values'
  | [], _, hrel => by cases hrel; rfl
  | value :: values, _, hrel => by
    cases hrel with
    | cons hhead htail =>
      rw [Value.viewAll, Value.viewAll, ValueRel.view_eq hhead, ValueRel.viewAll_eq htail]

end

variable {value value' cell cell' : Value} {env env' : Env} {names : List String}
  {bindings bindings' : List (String × Value)}

/-- Related values are the same word to the host. -/
theorem ValueRel.word_eq (host : Host) (hrel : ValueRel version value value') :
    host.word value = host.word value' := by
  cases hrel with
  | lit _ => rfl
  | data hparts => exact congrArg host.address (ValueRel.data hparts).view_eq
  | function _ => rfl
  | closure _ _ => rfl
  | cell _ => rfl

theorem ValueRel.truthy_eq (host : Host) (hrel : ValueRel version value value') :
    host.truthy value = host.truthy value' := by
  rw [Host.truthy, Host.truthy, hrel.word_eq]

/-! ## Environments -/

/-- The environments agree on the names. -/
def EnvRel (version : Version) (names : List String) (env env' : Env) : Prop :=
  ∀ x ∈ names, ValueRel version (env x) (env' x)

/-- Fewer names ask less. -/
theorem EnvRel.mono {names' : List String} (hrel : EnvRel version names env env')
    (hsub : ∀ x ∈ names', x ∈ names) :
    EnvRel version names' env env' := fun x hx => hrel x (hsub x hx)

theorem EnvRel.tail {name : String} (hrel : EnvRel version (name :: names) env env') :
    EnvRel version names env env' := hrel.mono fun _ => .tail _

theorem EnvRel.left {names' : List String} (hrel : EnvRel version (names ++ names') env env') :
    EnvRel version names env env' := hrel.mono fun _ => mem_append_left _

theorem EnvRel.right {names' : List String} (hrel : EnvRel version (names ++ names') env env') :
    EnvRel version names' env env' := hrel.mono fun _ => mem_append_right _

theorem EnvRel.forall₂_map {args : List String} (hrel : EnvRel version names env env')
    (hsub : ∀ x ∈ args, x ∈ names) :
    List.Forall₂ (ValueRel version) (args.map env) (args.map env') := by
  induction args with
  | nil => exact .nil
  | cons arg args ih =>
    rw [forall_mem_cons] at hsub
    exact .cons (hrel arg hsub.1) (ih hsub.2)

/-- The same names, bound to related values. -/
abbrev BindingsRel (version : Version) : List (String × Value) → List (String × Value) → Prop :=
  List.Forall₂ fun binding binding' =>
    binding.1 = binding'.1 ∧ ValueRel version binding.2 binding'.2

/-- Binding related values relates the names they bind. -/
theorem EnvRel.bindAll (hbindings : BindingsRel version bindings bindings')
    (hrel : EnvRel version (without names (bindings.map (·.1))) env env') :
    EnvRel version names (env.bindAll bindings) (env'.bindAll bindings') := by
  induction hbindings generalizing names with
  | nil => exact hrel.mono fun x hx => mem_without.2 ⟨hx, not_mem_nil⟩
  | @cons binding binding' rest rest' hhead _ ih =>
    have hrest : EnvRel version (without names [binding.1]) (env.bindAll rest)
      (env'.bindAll rest') :=
      ih (hrel.mono fun x hx => by
        simp only [mem_without, map_cons, mem_cons] at hx ⊢
        tauto)
    intro x hx
    change ValueRel version (if x = binding.1 then binding.2 else env.bindAll rest x)
      (if x = binding'.1 then binding'.2 else env'.bindAll rest' x)
    rw [← hhead.1]
    split_ifs with hname
    · exact hhead.2
    · exact hrest x (mem_without.2 ⟨hx, by simpa using hname⟩)

theorem EnvRel.set {name : String} (hrel : EnvRel version (without names [name]) env env')
    (hvalue : ValueRel version value value') :
    EnvRel version names (env.set name value) (env'.set name value') := by
  have hbindings : BindingsRel version [(name, value)] [(name, value')] := .cons ⟨rfl, hvalue⟩ .nil
  exact EnvRel.bindAll hbindings hrel

theorem bindingsRel_zip {params : List String}
    (hargs : List.Forall₂ (ValueRel version) args args') :
    BindingsRel version (params.zip args) (params.zip args') := by
  induction hargs generalizing params with
  | nil => cases params <;> exact .nil
  | cons harg _ ih =>
    cases params with
    | nil => exact .nil
    | cons param params => exact .cons ⟨rfl, harg⟩ ih

/-! ## Parts of values -/

/-- Related values are lists together, of related elements. -/
theorem ValueRel.elements (hrel : ValueRel version value value') :
    Option.Rel (List.Forall₂ (ValueRel version)) value.elements value'.elements := by
  cases hrel with
  | @data kind _ _ hparts =>
    cases kind with
    | list | set => exact .some hparts
    | _ => exact .none
  | _ => exact .none

theorem BindingsRel.find (hrel : BindingsRel version bindings bindings') (name : String) :
    Option.Rel (ValueRel version) ((bindings.find? (·.1 = name)).map (·.2))
      ((bindings'.find? (·.1 = name)).map (·.2)) := by
  induction hrel with
  | nil => exact .none
  | cons hhead _ ih =>
    rw [find?_cons, find?_cons, ← hhead.1]
    split
    · exact .some hhead.2
    · exact ih

/-- Related records have related fields. -/
theorem ValueRel.field (hrel : ValueRel version value value') (field : String) :
    Option.Rel (ValueRel version) (value.field field) (value'.field field) := by
  cases hrel with
  | @data kind parts parts' hparts =>
    cases kind with
    | record fields => exact (bindingsRel_zip hparts).find field
    | _ => exact .none
  | _ => exact .none

theorem ValueRel.setField {new new' : Value} (hrel : ValueRel version value value')
    (hnew : ValueRel version new new') (field : String) :
    Option.Rel (ValueRel version) (value.setField field new) (value'.setField field new') := by
  cases hrel with
  | @data kind parts parts' hparts =>
    cases kind with
    | record fields =>
      simp only [Value.setField]
      split_ifs
      · have hslots : BindingsRel version (fields.zip parts) (fields.zip parts') :=
          bindingsRel_zip hparts
        refine .some (.data (forall₂_map_left_iff.2 (forall₂_map_right_iff.2 ?_)))
        refine hslots.imp fun slot slot' hslot => ?_
        rw [← hslot.1]
        split_ifs
        · exact hnew
        · exact hslot.2
      · exact .none
    | _ => exact .none
  | _ => exact .none

/-! ## States and outcomes -/

structure StateRel (version : Version) (st st' : State) : Prop where
  trace : st.trace = st'.trace
  cells : List.Forall₂ (ValueRel version) st.cells st'.cells

inductive StopRel (version : Version) : Stop → Stop → Prop
  | brk {value value' : Value} : ValueRel version value value' →
    StopRel version (.brk value) (.brk value')
  | cont : StopRel version .cont .cont
  | ret {value value' : Value} : ValueRel version value value' →
    StopRel version (.ret value) (.ret value')
  | trap : StopRel version .trap .trap
  | outOfFuel : StopRel version .outOfFuel .outOfFuel

/-- The two outcomes are alike. -/
abbrev Sim (version : Version) : EStateM.Result Stop State Value →
    EStateM.Result Stop State Value → Prop :=
  Agree (StateRel version) (StopRel version) (ValueRel version)

variable {st st' : State}

/-- The host answers both runs alike. -/
theorem sim_perform (hrefl : version.Reflexive) (host : Host) (request : Request)
    (hargs : List.Forall₂ (ValueRel version) args args') (hst : StateRel version st st') :
    Sim version (perform host request args st) (perform host request args' st') := by
  obtain ⟨trace, cells⟩ := st
  obtain ⟨trace', cells'⟩ := st'
  obtain ⟨rfl, hcells⟩ : trace = trace' ∧ _ := ⟨hst.trace, hst.cells⟩
  simp only [perform, ValueRel.viewAll_eq hargs]
  cases host.answer trace ⟨request, Value.viewAll args'⟩ with
  | value value => exact ⟨ValueRel.refl hrefl value, rfl, hcells⟩
  | trap => exact ⟨.trap, rfl, hcells⟩
  | hang => exact ⟨.outOfFuel, rfl, hcells⟩

theorem sim_orTrap {found found' : Option Value}
    (hfound : Option.Rel (ValueRel version) found found')
    (hst : StateRel version st st') : Sim version (orTrap found st) (orTrap found' st') := by
  cases hfound with
  | some hvalue => exact agree_pure hvalue hst
  | none => exact agree_throw .trap hst

theorem sim_callFunction (hrefl : version.Reflexive) (host : Host) (func : String)
    (hargs : List.Forall₂ (ValueRel version) args args') (hst : StateRel version st st') :
    Sim version (callFunction host func args st) (callFunction host func args' st') := by
  have hwords : args.map host.word = args'.map host.word :=
    map_eq_map_of_forall₂ hargs fun _ _ hrel => hrel.word_eq host
  rw [callFunction, callFunction, hwords, ValueRel.viewAll_eq hargs]
  cases (intOp func).bind fun op => runInts op (args'.map host.word) with
  | some result =>
    cases result with
    | some value => exact agree_pure (.lit value) hst
    | none => exact agree_throw .trap hst
  | none =>
    cases host.quiet func with
    | some run => exact agree_pure (.refl hrefl _) hst
    | none => exact sim_perform hrefl host _ hargs hst

theorem sim_overElements {collection collection' : Value}
    (hcollection : ValueRel version collection collection') {run run' : List Value → Comp Value}
    (hrun : ∀ values values', List.Forall₂ (ValueRel version) values values' →
      Sim version (run values st) (run' values' st')) (hst : StateRel version st st') :
    Sim version (overElements collection run st) (overElements collection' run' st') := by
  have helements := hcollection.elements
  unfold overElements
  generalize collection.elements = left at helements ⊢
  generalize collection'.elements = right at helements ⊢
  cases helements with
  | some hvalues => exact hrun _ _ hvalues
  | none => exact agree_throw .trap hst

theorem sim_readyBranch (host : Host) {channels channels' : List Value}
    (hchannels : List.Forall₂ (ValueRel version) channels channels')
    (hst : StateRel version st st') :
    Agree (StateRel version) (StopRel version) Eq (readyBranch host channels st)
      (readyBranch host channels' st') := by
  unfold readyBranch
  rw [ValueRel.viewAll_eq hchannels, hst.trace]
  exact ⟨rfl, hst⟩

theorem sim_newCell (hvalue : ValueRel version value value') (hst : StateRel version st st') :
    Sim version (newCell value st) (newCell value' st') := by
  unfold newCell
  rw [hst.cells.length_eq]
  exact ⟨.cell _, hst.trace, rel_append hst.cells (.cons hvalue .nil)⟩

theorem sim_getCell (hcell : ValueRel version cell cell') (hst : StateRel version st st') :
    Sim version (getCell cell st) (getCell cell' st') := by
  cases hcell with
  | cell address => exact sim_orTrap (rel_getElem? hst.cells address) hst
  | _ => exact agree_throw .trap hst

/-- Related cells stay related when both are written. -/
theorem sim_setCell (hcell : ValueRel version cell cell') (hvalue : ValueRel version value value')
    (hst : StateRel version st st') :
    Sim version (setCell cell value st) (setCell cell' value' st') := by
  cases hcell with
  | cell address =>
    have hcells := forall₂_set hst.cells hvalue address
    unfold setCell
    dsimp only
    rw [hst.cells.length_eq]
    split_ifs
    · exact ⟨.lit .unit, hst.trace, hcells⟩
    · exact ⟨StopRel.trap, hst⟩
  | _ => exact agree_throw .trap hst

/-! ## Patterns -/

inductive MatchRel (version : Version) : PatternMatch → PatternMatch → Prop
  | yes {bindings bindings' : List (String × Value)} : BindingsRel version bindings bindings' →
    MatchRel version (.yes bindings) (.yes bindings')
  | no : MatchRel version .no .no
  | stuck : MatchRel version .stuck .stuck

/-- A pattern on a word binds nothing. -/
theorem matchWord_cases (pattern : String) (word : Int64) :
    matchWord pattern word = .yes [] ∨ matchWord pattern word = .no ∨
      matchWord pattern word = .stuck := by
  unfold matchWord
  split
  · split_ifs <;> simp
  · split_ifs <;> simp
  · simp

theorem matchRel_matchWord (pattern : String) (word : Int64) :
    MatchRel version (matchWord pattern word) (matchWord pattern word) := by
  rcases matchWord_cases pattern word with heq | heq | heq <;> rw [heq]
  · exact .yes .nil
  · exact .no
  · exact .stuck

theorem matchRel_bindPayload (binder : Option String) {parts' : List Value}
    (hparts : List.Forall₂ (ValueRel version) parts parts') :
    MatchRel version (bindPayload binder parts) (bindPayload binder parts') := by
  cases binder with
  | none => exact .yes .nil
  | some binder =>
    match hparts with
    | .nil => exact .stuck
    | .cons hpart .nil => exact .yes (.cons ⟨rfl, hpart⟩ .nil)
    | .cons _ (.cons _ _) => exact .stuck

/-- A pattern answers alike on related values. -/
theorem ValueRel.matchPattern (host : Host) (pattern : String)
    (hrel : ValueRel version value value') :
    MatchRel version (matchPattern host pattern value) (matchPattern host pattern value') := by
  have hword := hrel.word_eq host
  unfold Ail.Compiler.matchPattern
  split_ifs
  · exact .yes .nil
  · cases hconstructor : parseConstructorPattern pattern <;>
      cases hbinder : armPayloadBinding pattern <;>
      cases hrel with
      | @data kind _ _ hparts =>
        cases kind <;>
          first
            | exact .stuck
            | (dsimp only; rw [hword]; exact matchRel_matchWord pattern _)
            | (dsimp only; split_ifs; exacts [matchRel_bindPayload _ hparts, .no])
      | _ =>
        first
          | exact .stuck
          | (dsimp only; rw [hword]; exact matchRel_matchWord pattern _)

theorem armPayloadBinding_wildcard (hwild : Ail.Core.trim pattern.toList = ['_']) :
    armPayloadBinding pattern = none := by
  have hparse : parseConstructorPattern pattern = none := by
    unfold parseConstructorPattern
    rw [hwild]
    rfl
  rw [armPayloadBinding, hparse]

/-- What is bound is the name in the pattern. -/
theorem bindPayload_binders {binder : Option String}
    (hmatch : bindPayload binder parts = .yes bindings) : bindings.map (·.1) = binder.toList := by
  unfold bindPayload at hmatch
  split at hmatch
  · obtain rfl := PatternMatch.yes.inj hmatch
    rfl
  · obtain rfl := PatternMatch.yes.inj hmatch
    rfl
  · cases hmatch

theorem matchWord_bindings {word : Int64} (hmatch : matchWord pattern word = .yes bindings) :
    bindings = [] := by
  rcases matchWord_cases pattern word with heq | heq | heq <;> rw [heq] at hmatch
  · exact (PatternMatch.yes.inj hmatch).symm
  · cases hmatch
  · cases hmatch

/-- A match binds the names that count as bound in the arm. -/
theorem matchPattern_binders {host : Host}
    (hmatch : Ail.Compiler.matchPattern host pattern value = .yes bindings) :
    bindings.map (·.1) = armBinders pattern := by
  unfold Ail.Compiler.matchPattern at hmatch
  split_ifs at hmatch with hwild
  · obtain rfl := PatternMatch.yes.inj hmatch
    rw [armBinders, armPayloadBinding_wildcard hwild]
    rfl
  · split at hmatch
    · split_ifs at hmatch
      exact bindPayload_binders hmatch
    · cases hmatch
    · cases hmatch
    · rename_i hbinder _ _
      rw [matchWord_bindings hmatch, armBinders, hbinder]
      rfl

/-! ## Loops -/

section

variable {body body' : Comp Value}

/-- What one round gives. -/
abbrev RoundSim (version : Version) :
    EStateM.Result Stop State (Option Value) → EStateM.Result Stop State (Option Value) → Prop :=
  Agree (StateRel version) (StopRel version) (Option.Rel (ValueRel version))

theorem sim_loopRound (hbody : Sim version (body st) (body' st')) :
    RoundSim version (loopRound body st) (loopRound body' st') := by
  refine hbody.attempt.bind fun _ _ _ _ _ hend hst => ?_
  cases hend with
  | ok hvalue => exact agree_pure (.some hvalue) hst
  | error hstop =>
    cases hstop with
    | brk hvalue => exact agree_pure (.some hvalue) hst
    | cont => exact agree_pure .none hst
    | ret hvalue => exact agree_throw (.ret hvalue) hst
    | trap => exact agree_throw .trap hst
    | outOfFuel => exact agree_throw .outOfFuel hst

theorem sim_bodyRound (hbody : Sim version (body st) (body' st')) :
    RoundSim version (bodyRound body st) (bodyRound body' st') := by
  refine hbody.attempt.bind fun _ _ _ _ _ hend hst => ?_
  cases hend with
  | ok _ => exact agree_pure .none hst
  | error hstop =>
    cases hstop with
    | brk _ => exact agree_pure (.some (.lit _)) hst
    | cont => exact agree_pure .none hst
    | ret hvalue => exact agree_throw (.ret hvalue) hst
    | trap => exact agree_throw .trap hst
    | outOfFuel => exact agree_throw .outOfFuel hst

end

/-- Loops over related elements end alike. -/
theorem sim_eachRound {body body' : Value → Comp Value}
    (hbody : ∀ value value' st st', ValueRel version value value' → StateRel version st st' →
      Sim version (body value st) (body' value' st'))
    (hvalues : List.Forall₂ (ValueRel version) values values') :
    ∀ {st st' : State}, StateRel version st st' →
      Sim version (eachRound body values st) (eachRound body' values' st') := by
  induction hvalues with
  | nil => exact fun hst => agree_pure (.lit _) hst
  | cons hvalue _ ih =>
    intro st st' hst
    refine (sim_bodyRound (hbody _ _ st st' hvalue hst)).bind fun _ _ _ _ _ hend hst₁ => ?_
    cases hend with
    | some hresult => exact agree_pure hresult hst₁
    | none => exact ih hst₁

/-! ## Expressions -/

/-- Applying related functions to related arguments. -/
def ApplySim (version : Version) (apply : Value → List Value → Comp Value) : Prop :=
  ∀ f f' args args' st st', ValueRel version f f' → List.Forall₂ (ValueRel version) args args' →
    StateRel version st st' → Sim version (apply f args st) (apply f' args' st')

variable {host : Host} {apply : Value → List Value → Comp Value} {n : Nat}

/-- The parts are evaluated in order. -/
theorem evalAll_eq (es : List AnfExpr) (env : Env) :
    evalAll host apply n es env = es.mapM fun e => evalWith host apply n e env := by
  induction es with
  | nil => rfl
  | cons e es ih => rw [evalAll, ih, mapM_cons]

theorem evalFields_eq (fields : List (String × AnfExpr)) (env : Env) :
    evalFields host apply n fields env =
      (fields.map (·.2)).mapM fun e => evalWith host apply n e env := by
  induction fields with
  | nil => rfl
  | cons field fields ih => rw [evalFields, ih, map_cons, mapM_cons]

theorem evalOption_eq (payload : Option AnfExpr) (env : Env) :
    evalOption host apply n payload env =
      payload.toList.mapM fun e => evalWith host apply n e env := by
  cases payload with
  | none => rfl
  | some e => rw [Option.toList_some, mapM_cons]; rfl

theorem mem_freeVarsAll_of_mem {e : AnfExpr} (he : e ∈ es) {x : String} (hx : x ∈ e.freeVars) :
    x ∈ AnfExpr.freeVarsAll es := by
  rw [AnfExpr.freeVarsAll_eq]
  exact mem_flatMap.2 ⟨e, he, hx⟩

theorem freeVarsFields_eq_all (fields : List (String × AnfExpr)) :
    AnfExpr.freeVarsFields fields = AnfExpr.freeVarsAll (fields.map (·.2)) := by
  rw [AnfExpr.freeVarsFields_eq, AnfExpr.freeVarsAll_eq, flatMap_map]

theorem freeVarsOption_eq_all (payload : Option AnfExpr) :
    AnfExpr.freeVarsOption payload = AnfExpr.freeVarsAll payload.toList := by
  cases payload with
  | none => rfl
  | some e => simp [AnfExpr.freeVarsOption, AnfExpr.freeVarsAll]

theorem channel_mem_freeVarsBranches {branch : String × String × AnfExpr}
    (hbranch : branch ∈ branches) : branch.1 ∈ AnfExpr.freeVarsBranches branches := by
  rw [AnfExpr.freeVarsBranches_eq]
  exact mem_flatMap.2 ⟨branch, hbranch, .head _⟩

/-- The expression gives the same in related environments. -/
def SameSim (version : Version) (host : Host) (apply : Value → List Value → Comp Value) (n : Nat)
    (e : AnfExpr) : Prop :=
  ∀ env env' st st', EnvRel version e.freeVars env env' → StateRel version st st' →
    Sim version (evalWith host apply n e env st) (evalWith host apply n e env' st')

theorem sim_mapM_same (hes : ∀ e ∈ es, SameSim version host apply n e)
    (henv : EnvRel version (AnfExpr.freeVarsAll es) env env') (hst : StateRel version st st') :
    Agree (StateRel version) (StopRel version) (List.Forall₂ (ValueRel version))
      (es.mapM (fun e => evalWith host apply n e env) st)
      (es.mapM (fun e => evalWith host apply n e env') st') := by
  refine Agree.mapM (forall₂_same.2 fun e he st st' hst => ?_) hst
  exact hes e he env env' st st' (henv.mono fun _ hx => mem_freeVarsAll_of_mem he hx) hst

/-- Both runs take the same arm. -/
theorem sim_evalArms_same {arms : List (String × AnfExpr)}
    (harms : ∀ arm ∈ arms, SameSim version host apply n arm.2)
    (hvalue : ValueRel version value value')
    (henv : EnvRel version (AnfExpr.freeVarsArms arms) env env') (hst : StateRel version st st') :
    Sim version (evalArms host apply n value arms env st)
      (evalArms host apply n value' arms env' st') := by
  induction arms with
  | nil => exact agree_throw .trap hst
  | cons arm arms ih =>
    rw [forall_mem_cons] at harms
    have hmatch := hvalue.matchPattern host arm.1
    rw [evalArms, evalArms]
    generalize hleft : matchPattern host arm.1 value = left at hmatch ⊢
    generalize matchPattern host arm.1 value' = right at hmatch ⊢
    cases hmatch with
    | yes hbindings =>
      refine harms.1 _ _ st st' (EnvRel.bindAll hbindings ?_) hst
      rw [matchPattern_binders hleft]
      exact henv.left
    | no => exact ih harms.2 henv.right
    | stuck => exact agree_throw .trap hst

theorem sim_evalBranch_same
    (hbranches : ∀ branch ∈ branches, SameSim version host apply n branch.2.2) (index : Nat)
    {received received' : Value} (hreceived : ValueRel version received received')
    (henv : EnvRel version (AnfExpr.freeVarsBranches branches) env env')
    (hst : StateRel version st st') :
    Sim version (evalBranch host apply n index received branches env st)
      (evalBranch host apply n index received' branches env' st') := by
  induction branches generalizing index with
  | nil => exact agree_throw .trap hst
  | cons branch branches ih =>
    rw [forall_mem_cons] at hbranches
    rw [evalBranch, evalBranch]
    split_ifs
    · refine hbranches.1 _ _ st st' (EnvRel.set ?_ hreceived) hst
      exact henv.left.tail
    · exact ih hbranches.2 _ henv.right

theorem forall₂_getLastD (hvalues : List.Forall₂ (ValueRel version) values values') :
    ∀ {default default' : Value}, ValueRel version default default' →
      ValueRel version (values.getLastD default) (values'.getLastD default') := by
  induction hvalues with
  | nil => exact fun hdefault => hdefault
  | cons hvalue _ ih =>
    intro _ _ _
    rw [getLastD_cons, getLastD_cons]
    exact ih hvalue

/-- An expression gives the same in environments that are related on its
free variables. -/
theorem evalWith_sim (hrefl : version.Reflexive) (happly : ApplySim version apply) (e : AnfExpr) :
    SameSim version host apply n e := by
  induction e using AnfExpr.childInduction with
  | step e ih =>
    intro env env' st st' henv hst
    have atom {x : String} (hx : x ∈ e.freeVars) : ValueRel version (env x) (env' x) := henv x hx
    cases e with
    | literal value => exact agree_pure (.lit value) hst
    | var name => exact agree_pure (atom (mem_singleton_self name)) hst
    | letIn name value body =>
      have hvalue := ih value (by simp) _ _ _ _ henv.left hst
      refine hvalue.bind fun bound bound' st₁ st₁' _ hbound hst₁ => ?_
      refine ih body (by simp) _ _ _ _ (EnvRel.set ?_ hbound) hst₁
      exact henv.right
    | ifElse cond thenBranch elseBranch =>
      rw [evalWith, evalWith, (atom mem_cons_self).truthy_eq host]
      split_ifs
      · exact ih thenBranch (by simp) _ _ _ _ henv.tail.left hst
      · exact ih elseBranch (by simp) _ _ _ _ henv.tail.right hst
    | call func args =>
      exact sim_callFunction hrefl host func (henv.forall₂_map fun _ hx => hx) hst
    | fieldGet record field =>
      exact sim_orTrap ((atom (.head _)).field field) hst
    | returnWith value =>
      refine (ih value (by simp) _ _ _ _ henv hst).bind fun _ _ _ _ _ hresult hst₁ => ?_
      exact agree_throw (.ret hresult) hst₁
    | seq exprs =>
      rw [evalWith, evalWith, evalAll_eq, evalAll_eq]
      refine (sim_mapM_same ih henv hst).bind fun _ _ _ _ _ hvalues hst₁ => ?_
      exact agree_pure (forall₂_getLastD hvalues (.lit _)) hst₁
    | matchOn scrutinee arms =>
      exact sim_evalArms_same (fun arm harm => ih arm.2 (mem_map_of_mem harm))
        (atom (.head _)) henv.tail hst
    | lambda params captures body =>
      refine agree_pure (.closure (hrefl params body _) fun x hx => ?_) hst
      unfold Env.restrict
      split_ifs
      · exact henv x (mem_append_right _ hx)
      · exact .lit _
    | recordNew fields =>
      rw [evalWith, evalWith, evalFields_eq, evalFields_eq]
      have hnames : EnvRel version (AnfExpr.freeVarsAll (fields.map (·.2))) env env' := by
        rw [← freeVarsFields_eq_all]
        exact henv
      refine (sim_mapM_same ih hnames hst).bind fun _ _ _ _ _ hvalues hst₁ => ?_
      exact agree_pure (.data hvalues) hst₁
    | fieldUpdate record field value =>
      refine (ih value (by simp) _ _ _ _ henv.tail hst).bind fun _ _ _ _ _ hnew hst₁ => ?_
      exact sim_orTrap ((atom (.head _)).setField hnew field) hst₁
    | tupleNew elems | listNew elems =>
      rw [evalWith, evalWith, evalAll_eq, evalAll_eq]
      refine (sim_mapM_same ih henv hst).bind fun _ _ _ _ _ hvalues hst₁ => ?_
      exact agree_pure (.data hvalues) hst₁
    | variantNew tag payload =>
      rw [evalWith, evalWith, evalOption_eq, evalOption_eq]
      have hnames : EnvRel version (AnfExpr.freeVarsAll payload.toList) env env' := by
        rw [← freeVarsOption_eq_all]
        exact henv
      refine (sim_mapM_same ih hnames hst).bind fun _ _ _ _ _ hvalues hst₁ => ?_
      exact agree_pure (.data hvalues) hst₁
    | loop body =>
      refine Agree.rounds StopRel.outOfFuel (fun st₁ st₁' hst₁ => ?_) n hst
      exact sim_loopRound (ih body (by simp) _ _ _ _ henv hst₁)
    | breakWith value =>
      refine (ih value (by simp) _ _ _ _ henv hst).bind fun _ _ _ _ _ hresult hst₁ => ?_
      exact agree_throw (.brk hresult) hst₁
    | continueLoop => exact agree_throw .cont hst
    | whileLoop cond body =>
      rw [evalWith, evalWith, (atom mem_cons_self).truthy_eq host]
      split_ifs
      · refine Agree.rounds StopRel.outOfFuel (fun st₁ st₁' hst₁ => ?_) n hst
        exact sim_bodyRound (ih body (by simp) _ _ _ _ henv.tail hst₁)
      · exact agree_pure (.lit _) hst
    | shortCircuitAnd left right =>
      rw [evalWith, evalWith, (atom mem_cons_self).truthy_eq host]
      split_ifs
      · exact ih right (by simp) _ _ _ _ henv.tail hst
      · exact agree_pure (.lit _) hst
    | shortCircuitOr left right =>
      rw [evalWith, evalWith, (atom mem_cons_self).truthy_eq host]
      split_ifs
      · exact agree_pure (.lit _) hst
      · exact ih right (by simp) _ _ _ _ henv.tail hst
    | effectCall _ _ args | dispatch _ _ args | taskSpawn _ args | resourceAcquire _ args =>
      exact sim_perform hrefl host _ (henv.forall₂_map fun _ hx => hx) hst
    | channelSend channel value =>
      have hvalue := atom (mem_cons_of_mem channel (mem_singleton_self value))
      exact sim_perform hrefl host _ (.cons (atom (.head _)) (.cons hvalue .nil)) hst
    | channelReceive name | resourceRelease name | taskAwait name | taskCancel name =>
      exact sim_perform hrefl host _ (.cons (atom (mem_singleton_self name)) .nil) hst
    | runtimeCheck _ cond _ =>
      rw [evalWith, evalWith, (atom mem_cons_self).truthy_eq host]
      split_ifs
      · exact agree_throw .trap hst
      · exact agree_pure (.lit _) hst
    | taskGroup body =>
      refine (ih body (by simp) _ _ _ _ henv hst).bind fun _ _ _ _ _ hresult hst₁ => ?_
      exact sim_perform hrefl host _ (.cons hresult .nil) hst₁
    | channelNew capacity => exact sim_perform hrefl host _ .nil hst
    | select branches =>
      have hchannels : List.Forall₂ (ValueRel version) (branches.map fun branch => env branch.1)
          (branches.map fun branch => env' branch.1) :=
        forall₂_map_left_iff.2 (forall₂_map_right_iff.2 (forall₂_same.2
          fun branch hbranch => henv branch.1 (channel_mem_freeVarsBranches hbranch)))
      refine (sim_readyBranch host hchannels hst).bind fun index _ _ _ _ hindex hst₁ => ?_
      obtain rfl := hindex
      refine (sim_perform hrefl host .select hchannels hst₁).bind fun _ _ _ _ _ hreceived hst₂ => ?_
      exact sim_evalBranch_same (fun b hb => ih b.2.2 (mem_map_of_mem hb)) index hreceived henv hst₂
    | timeout duration body =>
      refine (ih body (by simp) _ _ _ _ henv.tail hst).bind fun _ _ _ _ _ hresult hst₁ => ?_
      exact sim_perform hrefl host _ (.cons (atom (.head _)) (.cons hresult .nil)) hst₁
    | cellNew init => exact sim_newCell (atom (.head _)) hst
    | cellGet cell => exact sim_getCell (atom (.head _)) hst
    | cellSet cell value =>
      exact sim_setCell (atom (.head _)) (atom (.tail _ (.head _))) hst
    | assume _ _ => exact agree_pure (.lit _) hst
    | abort _ | placeholder => exact agree_throw .trap hst
    | indexGet collection index =>
      have hindex := atom (mem_cons_of_mem collection (mem_singleton_self index))
      rw [evalWith, hindex.word_eq host]
      exact sim_overElements (atom (.head _))
        (fun _ _ hvalues => sim_orTrap (rel_getElem? hvalues _) hst) hst
    | mapNew _ | setNew _ =>
      exact agree_pure (.data (henv.forall₂_map fun _ hx => hx)) hst
    | forEach binding collection body =>
      refine sim_overElements (atom (.head _)) (fun _ _ hvalues => ?_) hst
      refine sim_eachRound (fun value value' st₁ st₁' hvalue hst₁ => ?_) hvalues hst
      refine ih body (by simp) _ _ _ _ (EnvRel.set ?_ hvalue) hst₁
      exact henv.tail
    | fold init list func =>
      have hlist := atom (mem_cons_of_mem init (.head _))
      have hfunc := atom (mem_cons_of_mem init (mem_cons_of_mem list (mem_singleton_self func)))
      refine sim_overElements hlist (fun _ _ hvalues => ?_) hst
      refine Agree.foldlM (fun acc acc' value value' st₁ st₁' hacc hvalue hst₁ => ?_) hvalues
        (atom (.head _)) hst
      exact happly _ _ _ _ st₁ st₁' hfunc (.cons hacc (.cons hvalue .nil)) hst₁

end

end Ail.Compiler
