import Mathlib.Init

/-!
# Verification reports

The part of a verification report that decides anything outside the
verifier (`report.rs`): the state of each entry and the summary, the
most severe state there is.
-/

namespace Ail.Verify

inductive VerificationState where
  | proven | runtimeChecked | assumed | unverified | unsafe_ | failed
  deriving DecidableEq

/-- Severity; a report is summed up by its most severe entry. -/
def VerificationState.priority : VerificationState → Nat
  | .proven => 0
  | .runtimeChecked => 1
  | .assumed => 2
  | .unverified => 3
  | .unsafe_ => 4
  | .failed => 5

variable {claim scope : String} {state : VerificationState} {evidence : Option String}

structure VerificationEntry where
  claim : String
  state : VerificationState
  scope : String
  evidence : Option String := none
  blocking : Bool := false
  repairOptions : List String := []
  deriving DecidableEq

namespace VerificationEntry

/-- The entry of a check that passed. -/
def passed (claim scope : String) : VerificationEntry := { claim, state := .proven, scope }

/-- The entry of a check that failed and blocks. -/
def rejected (claim scope evidence : String) : VerificationEntry :=
  { claim, state := .failed, scope, evidence := some evidence, blocking := true }

@[simp] theorem passed_state : (passed claim scope).state = .proven := rfl

@[simp] theorem rejected_state {evidence : String} :
    (rejected claim scope evidence).state = .failed := rfl

end VerificationEntry

/-- No entry of the list is a failure. -/
def NoneFailed (entries : List VerificationEntry) : Prop :=
  ∀ entry ∈ entries, entry.state ≠ .failed

@[simp] theorem noneFailed_nil : NoneFailed [] := fun _ hmem => nomatch hmem

@[simp] theorem noneFailed_append {first second : List VerificationEntry} :
    NoneFailed (first ++ second) ↔ NoneFailed first ∧ NoneFailed second := by
  simp [NoneFailed, or_imp, forall_and]

@[simp] theorem noneFailed_cons {entry : VerificationEntry} {entries : List VerificationEntry} :
    NoneFailed (entry :: entries) ↔ entry.state ≠ .failed ∧ NoneFailed entries :=
  List.forall_mem_cons

/-- `Failed` and `Unsafe` entries block. -/
def VerificationState.blocks : VerificationState → Bool
  | .failed | .unsafe_ => true
  | _ => false

/-- An entry that blocks just if its state does. -/
def makeEntry (claim : String) (state : VerificationState) (scope : String)
    (evidence : Option String) (repairOptions : List String) : VerificationEntry :=
  { claim, state, scope, evidence, blocking := state.blocks, repairOptions }

def stageEntry (claim : String) (state : VerificationState) (scope : String)
    (evidence : Option String) : VerificationEntry :=
  makeEntry claim state scope evidence []

@[simp] theorem makeEntry_state {repairOptions : List String} :
    (makeEntry claim state scope evidence repairOptions).state = state := rfl

@[simp] theorem stageEntry_state :
    (stageEntry claim state scope evidence).state = state := rfl

structure VerificationReport where
  entries : List VerificationEntry
  deriving DecidableEq

/-- The later of two states if it is at least as severe, as `max_by_key`
keeps it. -/
def VerificationState.worse (state next : VerificationState) : VerificationState :=
  if state.priority ≤ next.priority then next else state

/-- An empty report is summed up as proven. -/
def VerificationReport.summary (report : VerificationReport) : VerificationState :=
  (report.entries.map (·.state)).foldl VerificationState.worse .proven

/-- What ends a run without a result. -/
inductive Panic where
  /-- A text is cut at a byte that is inside a character. -/
  | notCharBoundary (pos : Nat)
  /-- `unreachable!`. -/
  | unreachable

/-- How many entries there are in each state. A runtime check counts as
verified as well. -/
structure SummaryCounts where
  verified : Nat
  runtimeChecked : Nat
  assumed : Nat
  unverified : Nat
  unsafe_ : Nat
  failed : Nat

def SummaryCounts.fromEntries (entries : List VerificationEntry) : SummaryCounts :=
  let count (state : VerificationState) := entries.countP (·.state = state)
  { verified := entries.countP fun entry => entry.state = .proven ∨ entry.state = .runtimeChecked
    runtimeChecked := count .runtimeChecked
    assumed := count .assumed
    unverified := count .unverified
    unsafe_ := count .unsafe_
    failed := count .failed }

end Ail.Verify
