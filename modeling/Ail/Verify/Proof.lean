import Ail.Core.SemanticGraph
import Ail.Lib.Canonical
import Ail.Verify.Solver

/-!
# The proof-obligation pipeline

`proof.rs`: obligations are generated from the contract clauses and some
marks of a graph's nodes, simplified, given to the solver, and what the
solver leaves open is composed (some `ensures` clause of the graph covers
it: `RuntimeChecked`) or degraded to an assumption. `run` does so for the
contract clauses in graph order, `runWithLedger` for all obligations in
a canonical order, with a record of the steps.

The solver is any solver. The optional Z3 fallback is a build feature
that is off by default and not modelled.
-/

namespace Ail.Verify

open Ail.Core Lib

/-! ## Results -/

inductive ObligationState where
  | proven
  | runtimeChecked
  | assumed (reason : String)
  | failed
  deriving DecidableEq

structure ObligationResult where
  obligation : ProofObligation
  state : ObligationState

/-- The stage of verification an obligation comes from, a string in the
source; in the order of `source_stage_rank`. -/
inductive SourceStage where
  | contract | refinement | resource | concurrency | boundary
  deriving DecidableEq, Ord

structure ObligationAttempt where
  stage : String
  outcome : String
  evidence : Option String := none

structure ObligationLedgerEntry where
  id : String
  obligation : ProofObligation
  state : ObligationState
  sourceStage : SourceStage
  attempts : List ObligationAttempt
  degradationReason : Option String := none
  repairOptions : List String := []

structure GeneratedObligation where
  obligation : ProofObligation
  sourceStage : SourceStage
  deriving DecidableEq

/-! ## Generate -/

variable (node : GraphNode)

/-- The obligations of the node's `ensures` clauses. -/
def ensuresObligations : List ProofObligation :=
  match node.contractClauses with
  | none => []
  | some clauses => clauses.ensures.map fun predicate => ⟨predicate, .ensures, node.name⟩

def requiresObligations : List ProofObligation :=
  match node.contractClauses with
  | none => []
  | some clauses => clauses.requires.map fun predicate => ⟨predicate, .requires, node.name⟩

def refinementObligations : List ProofObligation :=
  match node.refinementRef with
  | none => []
  | some refinement =>
    if refinement.status = .proven then [] else [⟨refinement.predicate, .ensures, node.name⟩]

def resourceObligations : List ProofObligation :=
  match node.trustMetadata with
  | none => []
  | some trust =>
    if startsWith trust.level.asStr "resource:" then
      [⟨"resource_lifecycle(" ++ node.name ++ ")", .ensures, node.name⟩]
    else []

def concurrencyObligations : List ProofObligation :=
  match node.trustMetadata with
  | none => []
  | some trust =>
    if trust.tags.any fun tag => tag = "concurrent" || tag = "shared" then
      [⟨"concurrency_safe(" ++ node.name ++ ")", .ensures, node.name⟩]
    else []

def boundaryObligations : List ProofObligation :=
  if node.kind = .boundary then [⟨"boundary_trust(" ++ node.name ++ ")", .requires, node.name⟩]
  else []

def nodeObligations : List GeneratedObligation :=
  (requiresObligations node).map (⟨·, .contract⟩) ++
    (ensuresObligations node).map (⟨·, .contract⟩) ++
    (refinementObligations node).map (⟨·, .refinement⟩) ++
    (resourceObligations node).map (⟨·, .resource⟩) ++
    (concurrencyObligations node).map (⟨·, .concurrency⟩) ++
    (boundaryObligations node).map (⟨·, .boundary⟩)

variable (graph : SemanticGraph)

def generateWithSources : List GeneratedObligation :=
  graph.nodes.flatMap nodeObligations

def generate : List ProofObligation :=
  ((generateWithSources graph).filter (·.sourceStage = .contract)).map (·.obligation)

/-- The order of the ledger. A stage's rank decides; ranks and names of
the stages differ together. -/
def GeneratedObligation.cmp (a b : GeneratedObligation) : Ordering :=
  (compare a.sourceStage b.sourceStage).then <|
    (compare a.obligation.scope b.obligation.scope).then <|
    (compare a.obligation.role b.obligation.role).then <|
    compare a.obligation.predicate b.obligation.predicate

/-- `canonicalize_ledger_obligations`. All fields are compared before one
of two neighbours is dropped. -/
def canonicalizeLedgerObligations (obligations : List GeneratedObligation) :
    List GeneratedObligation :=
  dedupAdjacent (obligations.insertionSort fun a b => (a.cmp b).isLE)

/-! ## Compose -/

section Resolution

variable (tables : CharTables)

/-- `parse_simple_cmp`: `<ident> <op> <int>`. -/
def parseSimpleCmp (text : List Char) : Option (List Char × CmpOp × Int64) :=
  [CmpOp.ge, .le, .gt, .lt].findSome? fun op =>
    match splitOnceText op.text (trim text) with
    | none => none
    | some (before, after) =>
      if isName tables (trim before) then
        (i64FromStr (trim after)).map fun val => (trim before, op, val)
      else none

def toLowerBound (op : CmpOp) (val : Int64) : Option Int64 :=
  match op with
  | .gt => some (saturated (val.toInt + 1))
  | .ge => some val
  | _ => none

/-- `semantic_implies`: `candidate` gives at least the lower bound that
`required` asks for. -/
def semanticImplies (required candidate : List Char) : Bool :=
  if trim required = trim candidate then true
  else
    match parseSimpleCmp tables required, parseSimpleCmp tables candidate with
    | some (rIdent, rOp, rVal), some (cIdent, cOp, cVal) =>
      if rIdent ≠ cIdent then false
      else
        match toLowerBound rOp rVal, toLowerBound cOp cVal with
        | some rLb, some cLb => cLb ≥ rLb
        | _, _ => false
    | _, _ => false

/-- The test of `compose_check` for one `ensures` clause. -/
def covers (predicate : List Char) (ensures : String) : Bool :=
  let candidate := trim ensures.toList
  candidate = predicate || semanticImplies tables predicate candidate

/-- `compose_check`. -/
def composeCheck (predicate : List Char) (graph : SemanticGraph) : Bool :=
  graph.nodes.any fun node =>
    match node.contractClauses with
    | none => false
    | some clauses => clauses.ensures.any (covers tables predicate)

/-! ## Resolve -/

/-- What the solver may assume: the preconditions and the body of the
first node of that name, for a postcondition only. -/
def scopeConstraints (obligation : ProofObligation) : List String :=
  match obligation.role with
  | .requires => []
  | .ensures =>
    match graph.nodes.find? (·.name = obligation.scope) with
    | none => []
    | some node => (node.contractClauses.elim [] (·.requires)) ++ node.bodyExpr.toList

def unsupportedReason : String := "solver cannot evaluate predicate; accepted by policy"

def resolve (graph : SemanticGraph) (solver : Solver) (obligation : ProofObligation) :
    ObligationResult :=
  let predicate := trim obligation.predicate.toList
  if predicate = "true".toList then ⟨obligation, .proven⟩
  else if predicate = "false".toList then ⟨obligation, .failed⟩
  else
    match solver.solveWithConstraints obligation (scopeConstraints graph obligation) with
    | .proven => ⟨obligation, .proven⟩
    | .assumed reason =>
      if composeCheck tables predicate graph then ⟨obligation, .runtimeChecked⟩
      else ⟨obligation, .assumed reason⟩
    | .unsupported =>
      if composeCheck tables predicate graph then ⟨obligation, .runtimeChecked⟩
      else ⟨obligation, .assumed unsupportedReason⟩

/-- The end of `resolve_to_ledger` after a solver attempt that proved
nothing: compose or degrade. -/
def composeOrDegrade (id : String) (generated : GeneratedObligation) (graph : SemanticGraph)
    (attempt : ObligationAttempt) (reason : String) : ObligationLedgerEntry :=
  if composeCheck tables (trim generated.obligation.predicate.toList) graph then
    { id, obligation := generated.obligation, state := .runtimeChecked,
      sourceStage := generated.sourceStage
      attempts :=
        [attempt, ⟨"compose", "composed", some "peer node ensures clause covers this predicate"⟩] }
  else
    { id, obligation := generated.obligation, state := .assumed reason,
      sourceStage := generated.sourceStage
      attempts := [attempt, ⟨"degrade", "degraded", some reason⟩]
      degradationReason := some reason
      repairOptions :=
        ["add a requires guard proven by the caller", "add a runtime check at the call site"] }

def resolveToLedger (graph : SemanticGraph) (solver : Solver) (id : String)
    (generated : GeneratedObligation) : ObligationLedgerEntry :=
  let obligation := generated.obligation
  let sourceStage := generated.sourceStage
  let predicate := trim obligation.predicate.toList
  if predicate = "true".toList then
    { id, obligation, state := .proven, sourceStage, attempts := [⟨"simplify", "proven", none⟩] }
  else if predicate = "false".toList then
    { id, obligation, state := .failed, sourceStage
      attempts :=
        [⟨"simplify", "failed", some "literal false — obligation is trivially violated"⟩]
      degradationReason := some "literal false clause"
      repairOptions :=
        ["remove or correct the false precondition",
          "add a guard that makes the clause reachable only when satisfiable"] }
  else
    match solver.solveWithConstraints obligation (scopeConstraints graph obligation) with
    | .proven =>
      { id, obligation, state := .proven, sourceStage, attempts := [⟨"solver", "proven", none⟩] }
    | .assumed reason =>
      composeOrDegrade tables id generated graph ⟨"solver", "assumed", some reason⟩ reason
    | .unsupported =>
      composeOrDegrade tables id generated graph
        ⟨"solver", "unsupported", some "predicate not supported by SimpleSolver"⟩ unsupportedReason

/-- `ProofObligationPipeline::run`. -/
def ProofObligationPipeline.run (graph : SemanticGraph) (solver : Solver) : List ObligationResult :=
  (generate graph).map (resolve tables graph solver)

/-- `ProofObligationPipeline::run_with_ledger`. -/
def ProofObligationPipeline.runWithLedger (graph : SemanticGraph) (solver : Solver) :
    List ObligationLedgerEntry :=
  (canonicalizeLedgerObligations (generateWithSources graph)).mapIdx fun idx generated =>
    resolveToLedger tables graph solver ("po_" ++ toString (idx + 1)) generated

end Resolution

end Ail.Verify
