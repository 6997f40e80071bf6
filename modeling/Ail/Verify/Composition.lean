import Ail.Verify.Proof

/-!
# Composition and its circle

`RuntimeChecked` is meant to say that a PROVEN `ensures` clause of a peer
covers the predicate. `composeCheck` asks less: any `ensures` clause will
do, proven or not, the obligation's own included. So every `ensures`
clause that the solver leaves open is composed with itself.

Covering is reflexive and transitive, which reduces the whole question to
the `ensures` clauses: `composition_grounded_iff`. That what is covered is
implied fails only above `i64::MAX`: `semanticImplies_exact_iff`.
-/

namespace Ail.Verify

open Ail.Core Lib List Int64

variable {tables : CharTables} {predicate a b : List Char} {node : GraphNode}
  {generated : GeneratedObligation}

/-! ## Covering -/

/-- The lower bound a comparison asks for. -/
def boundOf (tables : CharTables) (text : List Char) : Option (List Char × Int64) :=
  match parseSimpleCmp tables text with
  | none => none
  | some (ident, op, val) => (toLowerBound op val).map (ident, ·)

@[simp] theorem boundOf_trim (text : List Char) :
    boundOf tables (trim text) = boundOf tables text := by
  simp [boundOf, parseSimpleCmp]

theorem semanticImplies_iff {required candidate : List Char} :
    semanticImplies tables required candidate = true ↔
      trim required = trim candidate ∨
        ∃ ident rLb cLb, boundOf tables required = some (ident, rLb) ∧
          boundOf tables candidate = some (ident, cLb) ∧ rLb ≤ cLb := by
  unfold semanticImplies
  by_cases heq : trim required = trim candidate
  · simp [heq]
  · rw [if_neg heq]
    cases hr : parseSimpleCmp tables required with
    | none => simp [boundOf, hr, heq]
    | some r =>
      obtain ⟨rIdent, rOp, rVal⟩ := r
      cases hc : parseSimpleCmp tables candidate with
      | none => simp [boundOf, hc, heq]
      | some c =>
        obtain ⟨cIdent, cOp, cVal⟩ := c
        cases hrLb : toLowerBound rOp rVal with
        | none => simp [boundOf, hr, hrLb, heq]
        | some rLb =>
          cases hcLb : toLowerBound cOp cVal with
          | none => simp [boundOf, hc, hcLb, heq]
          | some cLb =>
            simp only [boundOf, hr, hc, hrLb, hcLb, heq, Option.map_some, Option.some.injEq,
              Prod.mk.injEq, false_or]
            constructor
            · intro himplies
              split at himplies
              · cases himplies
              · rename_i hident
                exact ⟨rIdent, rLb, cLb, ⟨rfl, rfl⟩, ⟨(not_not.1 hident).symm, rfl⟩,
                  by simpa using himplies⟩
            · rintro ⟨ident, r, c, ⟨rfl, rfl⟩, ⟨rfl, rfl⟩, hle⟩
              simpa using hle

theorem covers_iff {ensures : String} :
    covers tables (trim predicate) ensures = true ↔
      semanticImplies tables predicate ensures.toList = true := by
  simp only [covers, Bool.or_eq_true, decide_eq_true_eq, semanticImplies_iff, trim_trim,
    boundOf_trim]
  constructor
  · rintro (heq | himplies)
    · exact .inl heq.symm
    · exact himplies
  · exact .inr

theorem semanticImplies_refl (text : List Char) : semanticImplies tables text text = true :=
  semanticImplies_iff.2 (.inl rfl)

theorem boundOf_congr (heq : trim a = trim b) : boundOf tables a = boundOf tables b := by
  rw [← boundOf_trim a, heq, boundOf_trim]

theorem semanticImplies_trans {c : List Char} (hab : semanticImplies tables a b = true)
    (hbc : semanticImplies tables b c = true) : semanticImplies tables a c = true := by
  rw [semanticImplies_iff] at *
  obtain hab | ⟨ident, aLb, bLb, ha, hb, hle⟩ := hab
  · rwa [hab, boundOf_congr hab]
  obtain hbc | ⟨ident', bLb', cLb, hb', hc, hle'⟩ := hbc
  · exact .inr ⟨ident, aLb, bLb, ha, by rw [← boundOf_congr hbc, hb], hle⟩
  · rw [hb, Option.some.injEq] at hb'
    obtain ⟨rfl, rfl⟩ := hb'
    exact .inr ⟨ident, aLb, cLb, ha, hc, Int64.le_trans hle hle'⟩

/-- The literal `false` covers only itself. -/
theorem eq_false_of_semanticImplies
    (himplies : semanticImplies tables predicate "false".toList = true) :
    trim predicate = "false".toList := by
  obtain heq | ⟨ident, rLb, cLb, -, hnone, -⟩ := semanticImplies_iff.1 himplies
  · exact heq
  · have hbound : boundOf tables "false".toList = none := rfl
    cases hnone

/-! ## Implication -/

section Implication

variable {op : CmpOp} {val lb : Int64} {required candidate : List Char}
  {rIdent cIdent : List Char} {rOp cOp : CmpOp} {rVal cVal : Int64}

theorem exists_toLowerBound (hop : op = .gt ∨ op = .ge) : ∃ lb, toLowerBound op val = some lb := by
  rcases hop with rfl | rfl <;> exact ⟨_, rfl⟩

/-- A value satisfies a comparison if it reaches the lower bound; but no
value is above `i64::MAX`. -/
theorem compare_iff_of_toLowerBound (hlb : toLowerBound op val = some lb) (value : Int64) :
    op.compare value val = true ↔ lb ≤ value ∧ ¬ (op = .gt ∧ val = maxValue) := by
  cases op with
  | gt =>
    obtain rfl := Option.some.inj hlb
    have hvalue := value.toInt_lt
    have hval := val.toInt_lt
    have hmin := val.le_toInt
    simp only [CmpOp.compare, decide_eq_true_eq, true_and, lt_iff_toInt_lt, le_iff_toInt_le,
      ← toInt_inj, toInt_maxValue, saturated]
    split_ifs with hlow hhigh
    · omega
    · omega
    · rw [toInt_ofInt_of_le (by omega) (by omega)]
      omega
  | ge =>
    obtain rfl := Option.some.inj hlb
    simp [CmpOp.compare]
  | le | eq | ne | lt => cases hlb

/-- An implication that is reported holds, and one between lower bounds
that holds is reported, unless a value above `i64::MAX` is required and
the candidate is a lower bound that `i64::MAX` alone satisfies. -/
theorem semanticImplies_exact_iff (hr : parseSimpleCmp tables required = some (rIdent, rOp, rVal))
    (hc : parseSimpleCmp tables candidate = some (cIdent, cOp, cVal)) :
    ((semanticImplies tables required candidate = true → ∀ env : List Char → Int64,
        cOp.compare (env cIdent) cVal = true → rOp.compare (env rIdent) rVal = true) ∧
      (rIdent = cIdent → rOp = .gt ∨ rOp = .ge → cOp = .gt ∨ cOp = .ge →
        (∀ value, cOp.compare value cVal = true → rOp.compare value rVal = true) →
        semanticImplies tables required candidate = true)) ↔
      ¬ (rIdent = cIdent ∧ rOp = .gt ∧ rVal = Int64.maxValue ∧ (cOp = .gt ∨ cOp = .ge) ∧
        ∀ value, cOp.compare value cVal = true ↔ value = Int64.maxValue) := by
  simp only [semanticImplies_iff, boundOf, hr, hc, Option.map_eq_some_iff, Prod.mk.injEq]
  constructor
  · rintro ⟨hsound, -⟩ ⟨rfl, rfl, rfl, hop, honly⟩
    obtain ⟨lb, hlb⟩ := exists_toLowerBound hop
    have hmax := (honly _).2 rfl
    have hreached := ((compare_iff_of_toLowerBound hlb _).1 hmax).2
    obtain rfl := (honly lb).1 ((compare_iff_of_toLowerBound hlb lb).2 ⟨Int64.le_refl _, hreached⟩)
    exact absurd (hsound (.inr ⟨_, _, _, ⟨_, rfl, rfl, rfl⟩, ⟨_, hlb, rfl, rfl⟩, by decide⟩)
      (fun _ => maxValue) hmax) (by decide)
  · refine fun hnot => ⟨?_, fun hident hrOp hcOp himplies => ?_⟩
    · rintro (heq | ⟨_, _, _, ⟨rLb, hrLb, rfl, rfl⟩, ⟨cLb, hcLb, rfl, rfl⟩, hle⟩) env hsat
      · rw [parseSimpleCmp, heq] at hr
        cases hr.symm.trans hc
        exact hsat
      · rw [compare_iff_of_toLowerBound hcLb] at hsat
        refine (compare_iff_of_toLowerBound hrLb _).2 ⟨Int64.le_trans hle hsat.1, ?_⟩
        rintro ⟨rfl, rfl⟩
        obtain rfl := Option.some.inj hrLb
        refine hnot ⟨rfl, rfl, rfl, ?_, fun value => ?_⟩
        · cases cOp <;> simp [toLowerBound] at hcLb ⊢
        · obtain rfl := Int64.le_antisymm (le_maxValue cLb) hle
          rw [compare_iff_of_toLowerBound hcLb, and_iff_left hsat.2]
          exact ⟨Int64.le_antisymm (le_maxValue _), fun h => h ▸ Int64.le_refl _⟩
    · obtain ⟨rLb, hrLb⟩ := @exists_toLowerBound _ rVal hrOp
      obtain ⟨cLb, hcLb⟩ := @exists_toLowerBound _ cVal hcOp
      refine .inr ⟨_, rLb, cLb, ⟨_, hrLb, rfl, rfl⟩, ⟨_, hcLb, hident.symm, rfl⟩, ?_⟩
      by_cases htop : cOp = .gt ∧ cVal = maxValue
      · obtain ⟨rfl, rfl⟩ := htop
        obtain rfl := Option.some.inj hcLb
        exact le_maxValue _
      · have hreached := (compare_iff_of_toLowerBound hcLb cLb).2 ⟨Int64.le_refl _, htop⟩
        exact ((compare_iff_of_toLowerBound hrLb cLb).1 (himplies cLb hreached)).1

/-- `x > 0` is said to follow from `x >= 1`, and does. -/
theorem semanticImplies_exact_one :
    semanticImplies .ascii "x > 0".toList "x >= 1".toList = true ∧
      ∀ env : List Char → Int64, CmpOp.ge.compare (env ['x']) 1 = true →
        CmpOp.gt.compare (env ['x']) 0 = true :=
  ⟨by decide, ((@semanticImplies_exact_iff .ascii "x > 0".toList "x >= 1".toList _ _ _ _ _ _ rfl
    rfl).2 fun hmax => absurd hmax.2.2.1 (by decide)).1 (by decide)⟩

/-- `x > 9223372036854775807` is said to follow from what `i64::MAX`
satisfies. -/
theorem semanticImplies_above_max :
    semanticImplies .ascii "x > 9223372036854775807".toList
        "x >= 9223372036854775807".toList = true ∧
      parseSimpleCmp .ascii "x > 9223372036854775807".toList = some (['x'], .gt, Int64.maxValue) ∧
      parseSimpleCmp .ascii "x >= 9223372036854775807".toList =
        some (['x'], .ge, Int64.maxValue) ∧
      CmpOp.ge.compare Int64.maxValue Int64.maxValue = true ∧
      CmpOp.gt.compare Int64.maxValue Int64.maxValue = false := by
  decide

end Implication

/-! ## The clauses of a graph -/

section Clauses

variable {graph : SemanticGraph} {solver : Solver} {obligation clause : ProofObligation}

def ensuresClauses (graph : SemanticGraph) : List ProofObligation :=
  graph.nodes.flatMap ensuresObligations

theorem mem_ensuresObligations :
    obligation ∈ ensuresObligations node ↔ obligation.role = .ensures ∧
      obligation.scope = node.name ∧
      ∃ clauses, node.contractClauses = some clauses ∧ obligation.predicate ∈ clauses.ensures := by
  unfold ensuresObligations
  cases hclauses : node.contractClauses with
  | none => simp
  | some clauses =>
    simp only [mem_map, Option.some.injEq, exists_eq_left']
    constructor
    · rintro ⟨predicate, hmem, rfl⟩
      exact ⟨rfl, rfl, hmem⟩
    · rintro ⟨hrole, hscope, hmem⟩
      exact ⟨obligation.predicate, hmem, by rw [← hscope, ← hrole]⟩

theorem role_of_mem_requiresObligations (hmem : obligation ∈ requiresObligations node) :
    obligation.role = .requires := by
  unfold requiresObligations at hmem
  split at hmem
  · cases hmem
  · obtain ⟨predicate, -, rfl⟩ := mem_map.1 hmem
    rfl

theorem mem_contract_nodeObligations :
    ⟨obligation, .contract⟩ ∈ nodeObligations node ↔
      obligation ∈ requiresObligations node ∨ obligation ∈ ensuresObligations node := by
  simp [nodeObligations]

theorem mem_generateWithSources_of_clause (hclause : clause ∈ ensuresClauses graph) :
    ⟨clause, .contract⟩ ∈ generateWithSources graph := by
  obtain ⟨node, hnode, hmem⟩ := mem_flatMap.1 hclause
  exact mem_flatMap.2 ⟨node, hnode, mem_contract_nodeObligations.2 (.inr hmem)⟩

theorem clause_of_mem_generateWithSources (hrole : obligation.role = .ensures)
    (hmem : ⟨obligation, .contract⟩ ∈ generateWithSources graph) :
    obligation ∈ ensuresClauses graph := by
  obtain ⟨node, hnode, hmem⟩ := mem_flatMap.1 hmem
  obtain hreq | hens := mem_contract_nodeObligations.1 hmem
  · rw [role_of_mem_requiresObligations hreq] at hrole
    cases hrole
  · exact mem_flatMap.2 ⟨node, hnode, hens⟩

theorem role_of_mem_ensuresClauses (hclause : clause ∈ ensuresClauses graph) :
    clause.role = .ensures := by
  obtain ⟨node, -, hmem⟩ := mem_flatMap.1 hclause
  exact (mem_ensuresObligations.1 hmem).1

theorem mem_generate :
    obligation ∈ generate graph ↔ ⟨obligation, .contract⟩ ∈ generateWithSources graph := by
  simp only [generate, mem_map, mem_filter, decide_eq_true_eq]
  constructor
  · rintro ⟨⟨_, stage⟩, ⟨hmem, rfl⟩, rfl⟩
    exact hmem
  · exact fun hmem => ⟨_, ⟨hmem, rfl⟩, rfl⟩

theorem composeCheck_iff :
    composeCheck tables predicate graph = true ↔
      ∃ clause ∈ ensuresClauses graph, covers tables predicate clause.predicate = true := by
  rw [composeCheck, any_eq_true]
  constructor
  · rintro ⟨node, hnode, hany⟩
    cases hclauses : node.contractClauses with
    | none => simp [hclauses] at hany
    | some clauses =>
      rw [hclauses] at hany
      obtain ⟨ensures, hmem, hcovers⟩ := any_eq_true.1 hany
      exact ⟨⟨ensures, .ensures, node.name⟩, mem_flatMap.2 ⟨node, hnode,
        mem_ensuresObligations.2 ⟨rfl, rfl, clauses, hclauses, hmem⟩⟩, hcovers⟩
  · rintro ⟨clause, hclause, hcovers⟩
    obtain ⟨node, hnode, hmem⟩ := mem_flatMap.1 hclause
    obtain ⟨-, -, clauses, hclauses, hmem⟩ := mem_ensuresObligations.1 hmem
    refine ⟨node, hnode, ?_⟩
    rw [hclauses]
    exact any_eq_true.2 ⟨clause.predicate, hmem, hcovers⟩

/-! ## What an obligation is resolved to -/

/-- The obligation is the literal `true`, or the solver proves it. -/
def Established (graph : SemanticGraph) (solver : Solver) (obligation : ProofObligation) : Prop :=
  trim obligation.predicate.toList = "true".toList ∨
    trim obligation.predicate.toList ≠ "false".toList ∧
      solver.solveWithConstraints obligation (scopeConstraints graph obligation) = .proven

theorem resolve_obligation : (resolve tables graph solver obligation).obligation = obligation := by
  unfold resolve
  simp only
  repeat' split
  all_goals rfl

theorem resolve_state_iff :
    ((resolve tables graph solver obligation).state = .proven ↔
      Established graph solver obligation) ∧
    ((resolve tables graph solver obligation).state = .runtimeChecked ↔
      ¬ Established graph solver obligation ∧
        trim obligation.predicate.toList ≠ "false".toList ∧
        composeCheck tables (trim obligation.predicate.toList) graph = true) := by
  unfold resolve Established
  generalize "true".toList = yes, "false".toList = no
  simp only
  split
  next htrue => simp [htrue]
  next htrue =>
    split
    next hfalse => simp [← hfalse, htrue]
    next hfalse =>
      cases solver.solveWithConstraints obligation (scopeConstraints graph obligation) with
      | proven => simp [hfalse]
      | assumed _ | unsupported =>
        simp only
        split <;> simp_all

/-- The ledger and the plain pipeline agree. -/
theorem resolveToLedger_spec (id : String) (generated : GeneratedObligation) :
    (resolveToLedger tables graph solver id generated).obligation = generated.obligation ∧
      (resolveToLedger tables graph solver id generated).sourceStage = generated.sourceStage ∧
      (resolveToLedger tables graph solver id generated).state =
        (resolve tables graph solver generated.obligation).state := by
  unfold resolveToLedger resolve composeOrDegrade
  simp only
  repeat' split
  all_goals exact ⟨rfl, rfl, rfl⟩

/-! ## Grounded composition -/

/-- Every `ensures` clause but the literal `false` is covered by one that
is established, be it by itself. -/
def Grounded (tables : CharTables) (graph : SemanticGraph) (solver : Solver) : Prop :=
  ∀ clause ∈ ensuresClauses graph, trim clause.predicate.toList ≠ "false".toList →
    ∃ peer ∈ ensuresClauses graph, Established graph solver peer ∧
      covers tables (trim clause.predicate.toList) peer.predicate = true

theorem covers_trans {first second third : String}
    (hfirst : covers tables (trim first.toList) second = true)
    (hsecond : covers tables (trim second.toList) third = true) :
    covers tables (trim first.toList) third = true := by
  rw [covers_iff] at *
  exact semanticImplies_trans hfirst hsecond

/-- In a grounded graph a composed obligation rests on an established
clause of another obligation. -/
theorem Grounded.exists_peer (hgrounded : Grounded tables graph solver)
    (hchecked : (resolve tables graph solver obligation).state = .runtimeChecked) :
    ∃ peer ∈ ensuresClauses graph, peer ≠ obligation ∧
      (resolve tables graph solver peer).state = .proven ∧
      covers tables (trim obligation.predicate.toList) peer.predicate = true := by
  obtain ⟨hopen, hfalse, hcompose⟩ := resolve_state_iff.2.1 hchecked
  obtain ⟨clause, hclause, hcovers⟩ := composeCheck_iff.1 hcompose
  have hclauseFalse : trim clause.predicate.toList ≠ "false".toList := by
    intro heq
    rw [covers_iff] at hcovers
    have hliteral : semanticImplies tables clause.predicate.toList "false".toList = true :=
      semanticImplies_iff.2 (.inl heq)
    exact hfalse (eq_false_of_semanticImplies (semanticImplies_trans hcovers hliteral))
  obtain ⟨peer, hpeer, hestablished, hpeerCovers⟩ := hgrounded clause hclause hclauseFalse
  refine ⟨peer, hpeer, ?_, resolve_state_iff.1.2 hestablished, covers_trans hcovers hpeerCovers⟩
  rintro rfl
  exact hopen hestablished

/-- An `ensures` clause that is not established is composed, at least
with itself. So peers for the composed clauses ground the graph. -/
theorem grounded_of_peers
    (hpeers : ∀ clause ∈ ensuresClauses graph,
      (resolve tables graph solver clause).state = .runtimeChecked →
      ∃ peer ∈ ensuresClauses graph, (resolve tables graph solver peer).state = .proven ∧
        covers tables (trim clause.predicate.toList) peer.predicate = true) :
    Grounded tables graph solver := by
  intro clause hclause hfalse
  have hself : covers tables (trim clause.predicate.toList) clause.predicate = true :=
    covers_iff.2 (semanticImplies_refl _)
  by_cases hestablished : Established graph solver clause
  · exact ⟨clause, hclause, hestablished, hself⟩
  · obtain ⟨peer, hpeer, hproven, hcovers⟩ := hpeers clause hclause
      (resolve_state_iff.2.2
        ⟨hestablished, hfalse, composeCheck_iff.2 ⟨clause, hclause, hself⟩⟩)
    exact ⟨peer, hpeer, resolve_state_iff.1.1 hproven, hcovers⟩

/-! ## The two pipelines -/

theorem mem_run {result : ObligationResult} :
    result ∈ ProofObligationPipeline.run tables graph solver ↔
      result.obligation ∈ generate graph ∧
        result = resolve tables graph solver result.obligation := by
  rw [ProofObligationPipeline.run, mem_map]
  constructor
  · rintro ⟨obligation, hmem, rfl⟩
    rw [resolve_obligation]
    exact ⟨hmem, rfl⟩
  · rintro ⟨hmem, heq⟩
    exact ⟨_, hmem, heq.symm⟩

theorem mem_canonicalizeLedgerObligations {obligations : List GeneratedObligation} :
    generated ∈ canonicalizeLedgerObligations obligations ↔ generated ∈ obligations := by
  unfold canonicalizeLedgerObligations
  rw [mem_dedupAdjacent, mem_insertionSort]

theorem mem_runWithLedger {entry : ObligationLedgerEntry}
    (hmem : entry ∈ ProofObligationPipeline.runWithLedger tables graph solver) :
    ⟨entry.obligation, entry.sourceStage⟩ ∈ generateWithSources graph ∧
      entry.state = (resolve tables graph solver entry.obligation).state := by
  obtain ⟨idx, hidx, rfl⟩ := mem_mapIdx.1 hmem
  obtain ⟨hobligation, hstage, hstate⟩ := @resolveToLedger_spec tables graph solver
    ("po_" ++ toString (idx + 1)) ((canonicalizeLedgerObligations (generateWithSources graph))[idx])
  rw [hobligation, hstage, hstate]
  exact ⟨mem_canonicalizeLedgerObligations.1 (getElem_mem hidx), rfl⟩

theorem exists_mem_runWithLedger (hmem : generated ∈ generateWithSources graph) :
    ∃ entry ∈ ProofObligationPipeline.runWithLedger tables graph solver,
      entry.obligation = generated.obligation ∧ entry.sourceStage = generated.sourceStage ∧
        entry.state = (resolve tables graph solver generated.obligation).state := by
  obtain ⟨idx, hidx, rfl⟩ := getElem_of_mem (mem_canonicalizeLedgerObligations.2 hmem)
  exact ⟨_, mem_mapIdx.2 ⟨idx, hidx, rfl⟩, resolveToLedger_spec _ _⟩

end Clauses

/-- Every `RuntimeChecked` obligation of a pipeline rests on an `ensures`
clause of another obligation that the same pipeline proves, if and only
if the graph is grounded: for `run` and for `run_with_ledger` alike. -/
theorem composition_grounded_iff (graph : SemanticGraph) (solver : Solver) :
    ((∀ result ∈ ProofObligationPipeline.run tables graph solver, result.state = .runtimeChecked →
        ∃ peer ∈ ProofObligationPipeline.run tables graph solver,
          peer.obligation ≠ result.obligation ∧ peer.obligation.role = .ensures ∧
          peer.state = .proven ∧
          covers tables (trim result.obligation.predicate.toList) peer.obligation.predicate =
            true) ↔
      Grounded tables graph solver) ∧
    ((∀ entry ∈ ProofObligationPipeline.runWithLedger tables graph solver,
        entry.state = .runtimeChecked →
        ∃ peer ∈ ProofObligationPipeline.runWithLedger tables graph solver,
          peer.obligation ≠ entry.obligation ∧ peer.obligation.role = .ensures ∧
          peer.sourceStage = .contract ∧ peer.state = .proven ∧
          covers tables (trim entry.obligation.predicate.toList) peer.obligation.predicate = true) ↔
      Grounded tables graph solver) := by
  refine ⟨⟨fun hpeers => ?_, fun hgrounded => ?_⟩, ⟨fun hpeers => ?_, fun hgrounded => ?_⟩⟩
  · refine grounded_of_peers fun clause hclause hchecked => ?_
    have hmem := mem_generate.2 (mem_generateWithSources_of_clause hclause)
    obtain ⟨peer, hpeer, -, hrole, hproven, hcovers⟩ :=
      hpeers (resolve tables graph solver clause) (mem_map_of_mem hmem) hchecked
    obtain ⟨hgen, heq⟩ := mem_run.1 hpeer
    rw [resolve_obligation] at hcovers
    exact ⟨peer.obligation, clause_of_mem_generateWithSources hrole (mem_generate.1 hgen),
      by rwa [heq] at hproven, hcovers⟩
  · intro result hresult hchecked
    obtain ⟨-, heq⟩ := mem_run.1 hresult
    obtain ⟨peer, hpeer, hne, hproven, hcovers⟩ := hgrounded.exists_peer (by rwa [heq] at hchecked)
    refine ⟨resolve tables graph solver peer, mem_map_of_mem
      (mem_generate.2 (mem_generateWithSources_of_clause hpeer)), ?_⟩
    rw [resolve_obligation]
    exact ⟨hne, role_of_mem_ensuresClauses hpeer, hproven, hcovers⟩
  · refine grounded_of_peers fun clause hclause hchecked => ?_
    obtain ⟨entry, hentry, hobligation, -, hstate⟩ :=
      exists_mem_runWithLedger (mem_generateWithSources_of_clause hclause)
    rw [← hstate] at hchecked
    obtain ⟨peer, hpeer, -, hrole, hstage, hproven, hcovers⟩ := hpeers entry hentry hchecked
    obtain ⟨hgen, hpeerState⟩ := mem_runWithLedger hpeer
    rw [hstage] at hgen
    rw [hobligation] at hcovers
    exact ⟨peer.obligation, clause_of_mem_generateWithSources hrole hgen, hpeerState ▸ hproven,
      hcovers⟩
  · intro entry hentry hchecked
    obtain ⟨-, hstate⟩ := mem_runWithLedger hentry
    obtain ⟨clause, hclause, hne, hproven, hcovers⟩ := hgrounded.exists_peer (hstate ▸ hchecked)
    obtain ⟨peer, hpeer, hobligation, hstage, hpeerState⟩ :=
      exists_mem_runWithLedger (mem_generateWithSources_of_clause hclause)
    exact ⟨peer, hpeer, hobligation ▸ hne, hobligation ▸ role_of_mem_ensuresClauses hclause, hstage,
      hpeerState.trans hproven, hobligation ▸ hcovers⟩

/-- One function with one postcondition that the solver cannot evaluate. -/
def lonelyEnsures : SemanticGraph :=
  ⟨[{ id := ⟨0⟩, kind := .function, name := "sort"
      contractClauses := some ⟨[], ["sorted(result)"]⟩ }], []⟩

/-- The postcondition is reported `RuntimeChecked` on the strength of
itself: neither pipeline proves anything. -/
theorem lonelyEnsures_runtimeChecked :
    (∃ result ∈ ProofObligationPipeline.run CharTables.ascii lonelyEnsures
        (simpleSolver CharTables.ascii), result.state = .runtimeChecked) ∧
      (∀ peer ∈ ProofObligationPipeline.run CharTables.ascii lonelyEnsures
        (simpleSolver CharTables.ascii), peer.state ≠ .proven) ∧
      (∃ entry ∈ ProofObligationPipeline.runWithLedger CharTables.ascii lonelyEnsures
        (simpleSolver CharTables.ascii), entry.state = .runtimeChecked) ∧
      ∀ peer ∈ ProofObligationPipeline.runWithLedger CharTables.ascii lonelyEnsures
        (simpleSolver CharTables.ascii), peer.state ≠ .proven := by
  decide

end Ail.Verify
