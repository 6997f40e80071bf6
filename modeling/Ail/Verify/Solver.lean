import Ail.Core.Text
import Ail.Lib.MachineInt

/-!
# The built-in solver

`SimpleSolver` (`solver.rs`) decides proof obligations without an SMT
backend. It knows a few predicates by their shape, compares literals, and
otherwise keeps for every variable an inclusive LOWER bound, read off the
constraints of the obligation's scope, and evaluates the predicate `lhs
OP rhs` on that bound.

Texts are lists of characters here, names included.
-/

namespace Ail.Verify

open Ail.Core Lib

/-! ## Obligations and solvers -/

inductive ClauseRole where
  | requires | ensures
  deriving DecidableEq, Ord

structure ProofObligation where
  predicate : String
  role : ClauseRole
  /-- The name of the node the clause belongs to. -/
  scope : String
  deriving DecidableEq

inductive SolverOutcome where
  | proven
  | assumed (reason : String)
  | unsupported
  deriving DecidableEq

/-- The `Solver` trait. -/
structure Solver where
  solve : ProofObligation → SolverOutcome
  solveWithConstraints : ProofObligation → List String → SolverOutcome

/-! ## Simple predicates -/

/-- The comparison operators, in the order in which they are looked for. -/
inductive CmpOp where
  | ge | le | eq | ne | gt | lt
  deriving DecidableEq

namespace CmpOp

def text : CmpOp → List Char
  | ge => ['>', '=']
  | le => ['<', '=']
  | eq => ['=', '=']
  | ne => ['!', '=']
  | gt => ['>']
  | lt => ['<']

def all : List CmpOp := [ge, le, eq, ne, gt, lt]

def compare : CmpOp → Int64 → Int64 → Bool
  | ge, l, r => l ≥ r
  | le, l, r => l ≤ r
  | eq, l, r => l = r
  | ne, l, r => l ≠ r
  | gt, l, r => l > r
  | lt, l, r => l < r

end CmpOp

structure SimplePred where
  lhs : List Char
  op : CmpOp
  rhs : List Char

def parseInt (text : List Char) : Option Int64 := i64FromStr (trim text)

section Parsing

variable (tables : CharTables)

/-- An identifier, or what looks like one: a numeral has its characters
too. -/
def isName (text : List Char) : Bool := text.all tables.isIdentChar && !text.isEmpty

/-- A side of a predicate: a literal or an identifier. -/
def validSide (text : List Char) : Bool := (parseInt text).isSome || isName tables text

variable (pred : List Char)

def splitAtOp (op : CmpOp) : Option SimplePred :=
  match splitOnceText op.text pred with
  | none => none
  | some (before, after) =>
    let lhs := trim before
    let rhs := trim after
    if lhs = [] ∨ rhs = [] then none
    else if validSide tables lhs && validSide tables rhs then some ⟨lhs, op, rhs⟩ else none

/-- `parse_simple_pred`. -/
def parseSimplePred : Option SimplePred :=
  CmpOp.all.findSome? (splitAtOp tables (trim pred))

def isConstantTautology : Bool :=
  match parseSimplePred tables pred with
  | none => false
  | some p =>
    match parseInt p.lhs, parseInt p.rhs with
    | some l, some r => p.op.compare l r
    | _, _ => false

def isReflexiveTautology : Bool :=
  match parseSimplePred tables pred with
  | none => false
  | some p => p.lhs = p.rhs && (p.op = .ge || p.op = .eq || p.op = .le)

/-! ## Lower bounds -/

/-- `FactDb`: the lower bounds read off the constraints. `i64::MIN`
stands for "none known". -/
structure FactDb where
  lb : AList fun _ : List Char => Int64

namespace FactDb

def empty : FactDb := ⟨∅⟩

variable (db : FactDb)

/-- `lower_bound`. -/
def lowerBound (var : List Char) : Option Int64 :=
  (db.lb.lookup var).filter (· ≠ Int64.minValue)

/-- Raise the bound of a variable to `bound`, if that is higher. -/
def raise (var : List Char) (bound : Int64) : FactDb :=
  let entry := (db.lb.lookup var).getD Int64.minValue
  ⟨db.lb.insert var (if bound > entry then bound else entry)⟩

/-- One constraint in the first pass: `x == N`, `x >= N`, `x > N`. -/
def addBound (constraint : String) : FactDb :=
  match parseSimplePred tables (trim constraint.toList) with
  | none => db
  | some p =>
    match parseInt p.rhs, parseInt p.lhs with
    | some val, none =>
      match p.op with
      | .eq => ⟨db.lb.insert p.lhs val⟩
      | .ge => db.raise p.lhs val
      | .gt => db.raise p.lhs (saturated (val.toInt + 1))
      | _ => db
    | _, _ => db

/-- The bound the right side of an assignment has: of a sum, or else of a
name. -/
def rhsBound (rhs : List Char) : Option Int64 :=
  let ofSum := match splitOnce '+' rhs with
    | none => none
    | some (a, b) =>
      match db.lowerBound (trim a), db.lowerBound (trim b) with
      | some x, some y => some (saturated (x.toInt + y.toInt))
      | _, _ => none
  match ofSum with
  | some bound => some bound
  | none => if isName tables rhs then db.lowerBound rhs else none

/-- One constraint in the second pass: `x = y + z`, `x = y`. -/
def addAssignment (constraint : String) : FactDb :=
  match splitOnce '=' (trim constraint.toList) with
  | none => db
  | some (before, after) =>
    if before.getLast? ∈ [some '>', some '<', some '!', some '='] ∨ after.head? = some '=' then db
    else if isName tables (trim before) then
      match db.rhsBound tables (trim after) with
      | some bound => db.raise (trim before) bound
      | none => db
    else db

/-- `from_constraints`. -/
def fromConstraints (constraints : List String) : FactDb :=
  constraints.foldl (addAssignment tables) (constraints.foldl (addBound tables) empty)

/-- `prove_pred`. The right side is a literal, the left side may be a
variable. -/
def provePred (predicate : List Char) : Option Bool :=
  match parseSimplePred tables predicate with
  | none => none
  | some p =>
    match (parseInt p.lhs).or (db.lowerBound p.lhs), parseInt p.rhs with
    | some l, some r => some (p.op.compare l r)
    | _, _ => none

end FactDb

/-! ## `SimpleSolver` -/

def knownRefinementTypes : List String :=
  ["PositiveMoney", "NonEmptyText", "Email", "NonEmpty", "Positive", "NonNegative", "NonZero"]

def knownDomainObligations : List String :=
  ["resource_lifecycle", "concurrency_safe", "boundary_trust"]

/-- The text inside `known(…)`, blanks around each part allowed. -/
def argumentOf (known : String) (pred : List Char) : Option (List Char) :=
  match known.toList.isPrefixOf? pred with
  | none => none
  | some rest =>
    match trim rest with
    | '(' :: inner => if inner.getLast? = some ')' then some (trim inner.dropLast) else none
    | _ => none

/-- `predicate` is one of the `known` names applied to an identifier. -/
def isKnownPattern (known : List String) (predicate : List Char) : Bool :=
  known.any fun name =>
    match argumentOf name (trim predicate) with
    | some ident => isName tables ident
    | none => false

def isKnownRefinementPattern : List Char → Bool := isKnownPattern tables knownRefinementTypes

def isDomainObligationPattern : List Char → Bool := isKnownPattern tables knownDomainObligations

def simpleSolve (obligation : ProofObligation) : SolverOutcome :=
  let pred := trim obligation.predicate.toList
  if pred = "true".toList then .proven
  else if isKnownRefinementPattern tables pred then .proven
  else if isDomainObligationPattern tables pred then .proven
  else if isConstantTautology tables pred then .proven
  else if isReflexiveTautology tables pred then .proven
  else .unsupported

def simpleSolveWithConstraints (obligation : ProofObligation) (constraints : List String) :
    SolverOutcome :=
  let base := simpleSolve tables obligation
  if base = .proven then base
  else if constraints = [] then base
  else
    match (FactDb.fromConstraints tables constraints).provePred tables
        (trim obligation.predicate.toList) with
    | some true => .proven
    | _ => base

def simpleSolver : Solver := ⟨simpleSolve tables, simpleSolveWithConstraints tables⟩

end Parsing

end Ail.Verify
