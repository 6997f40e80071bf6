import Ail.Compiler.Lower

/-!
# The surface forms

The expressions the body parser can build, and what they have in common.
Most forms are a SHAPE: operands that the lowering names, in order, then
bodies that it lowers in place, each under the names it binds, and a
normal form rebuilt from the names and the lowered bodies. The variable,
the desugared `while`, the lambda and the early return are the forms
that are not.

`lowerCoreExpr_shape`, `mem_freeVars_shape` and `mem_freeVars_rebuild`
say once for all shapes what the two lowerings and the two notions of
free variable do.
-/

namespace Ail.Compiler

open Lib List AnfExpr

structure Shape where
  operands : List CoreExpr := []
  /-- The lowered-in-place subexpressions, with the names bound there. -/
  bodies : List (List String × CoreExpr) := []
  /-- Operators are lowered on the local path whichever path asks. -/
  isOperator : Bool := false
  rebuild : List String → List AnfExpr → AnfExpr

/-- The entries of a map from its keys and values in turn. -/
def pairNames : List String → List (String × String)
  | key :: value :: rest => (key, value) :: pairNames rest
  | _ => []

def CoreExpr.shape : CoreExpr → Option Shape
  | .literal value => some { rebuild := fun _ _ => .literal value }
  | .continueLoop => some { rebuild := fun _ _ => .continueLoop }
  | .abort message => some { rebuild := fun _ _ => .abort message }
  | .letIn name value body => some {
      bodies := [([], value), ([name], body)]
      rebuild := fun _ bodies => match bodies with
        | [value, body] => .letIn name value body
        | _ => .placeholder }
  | .ifElse cond then_ else_ => some {
      operands := [cond]
      bodies := [([], then_), ([], else_)]
      rebuild := fun names bodies => match names, bodies with
        | [cond], [thenBranch, elseBranch] => .ifElse cond thenBranch elseBranch
        | _, _ => .placeholder }
  | .matchOn scrutinee arms => some {
      operands := [scrutinee]
      bodies := arms.map fun arm => (armBinders arm.1, arm.2)
      rebuild := fun names bodies => match names with
        | [scrutinee] => .matchOn scrutinee ((arms.map (·.1)).zip bodies)
        | _ => .placeholder }
  | .call func args => some { operands := args, rebuild := fun names _ => .call func names }
  | .effectCall capability func args => some {
      operands := args
      rebuild := fun names _ => .effectCall capability func names }
  | .binary op left right => some {
      operands := [left, right]
      isOperator := true
      rebuild := fun names _ => .call op.name names }
  | .not operand => some {
      operands := [operand]
      isOperator := true
      rebuild := fun names _ => .call "not" names }
  | .and left right => some {
      operands := [left]
      bodies := [([], right)]
      rebuild := fun names bodies => match names, bodies with
        | [left], [right] => .shortCircuitAnd left right
        | _, _ => .placeholder }
  | .or left right => some {
      operands := [left]
      bodies := [([], right)]
      rebuild := fun names bodies => match names, bodies with
        | [left], [right] => .shortCircuitOr left right
        | _, _ => .placeholder }
  | .fieldGet record field => some {
      operands := [record]
      rebuild := fun names _ => match names with
        | [record] => .fieldGet record field
        | _ => .placeholder }
  | .fieldUpdate record field value => some {
      operands := [record, value]
      rebuild := fun names _ => match names with
        | [record, value] => .fieldUpdate record field (.var value)
        | _ => .placeholder }
  | .recordNew fields => some {
      operands := fields.map (·.2)
      rebuild := fun names _ => .recordNew ((fields.map (·.1)).zip (names.map .var)) }
  | .tupleNew elems => some {
      operands := elems
      rebuild := fun names _ => .tupleNew (names.map .var) }
  | .variantNew tag payload => some {
      operands := payload.toList
      rebuild := fun names _ => .variantNew tag (names.head?.map .var) }
  | .listNew elems => some {
      operands := elems
      rebuild := fun names _ => .listNew (names.map .var) }
  | .loop body _ => some {
      bodies := [([], body)]
      rebuild := fun _ bodies => match bodies with
        | [body] => .loop body
        | _ => .placeholder }
  | .breakWith value => some {
      bodies := [([], value)]
      rebuild := fun _ bodies => match bodies with
        | [value] => .breakWith value
        | _ => .placeholder }
  | .forEach binding collection body => some {
      operands := [collection]
      bodies := [([binding], body)]
      rebuild := fun names bodies => match names, bodies with
        | [collection], [body] => .forEach binding collection body
        | _, _ => .placeholder }
  | .fold init list func => some {
      operands := [init, list, func]
      rebuild := fun names _ => match names with
        | [init, list, func] => .fold init list func
        | _ => .placeholder }
  | .cellNew init => some {
      operands := [init]
      rebuild := fun names _ => match names with
        | [init] => .cellNew init
        | _ => .placeholder }
  | .cellGet cell => some {
      operands := [cell]
      rebuild := fun names _ => match names with
        | [cell] => .cellGet cell
        | _ => .placeholder }
  | .cellSet cell value => some {
      operands := [cell, value]
      rebuild := fun names _ => match names with
        | [cell, value] => .cellSet cell value
        | _ => .placeholder }
  | .mapNew entries => some {
      operands := entries.flatMap fun entry => [entry.1, entry.2]
      rebuild := fun names _ => .mapNew (pairNames names) }
  | .setNew elements => some { operands := elements, rebuild := fun names _ => .setNew names }
  | .indexGet collection index => some {
      operands := [collection, index]
      rebuild := fun names _ => match names with
        | [collection, index] => .indexGet collection index
        | _ => .placeholder }
  | _ => none

/-- The expressions over these forms. -/
inductive Surface : CoreExpr → Prop
  | var (name : String) : Surface (.var name)
  | shaped {e : CoreExpr} {s : Shape} (hshape : e.shape = some s)
      (operands : ∀ operand ∈ s.operands, Surface operand)
      (bodies : ∀ body ∈ s.bodies, Surface body.2) : Surface e
  | whileLoop {cond body : CoreExpr} (termination : Option LoopTermination)
      (hcond : Surface cond) (hbody : Surface body) : Surface (.whileLoop cond body termination)
  | lambda (params : List String) {body : CoreExpr} (hbody : Surface body) :
      Surface (.lambda params body)
  | returnWith {value : CoreExpr} (hvalue : Surface value) : Surface (.returnWith value)

/-! ## Lowering a shape -/

/-- Lower bodies in order. -/
def lowerAll (path : Path) : List CoreExpr → Lowering (List AnfExpr)
  | [] => pure []
  | e :: es => do
    let first ← lowerCoreExpr path e
    let rest ← lowerAll path es
    pure (first :: rest)

/-- The path a shape is lowered on. -/
def Shape.path (s : Shape) (path : Path) : Path := if s.isOperator then .localPath else path

/-- The lowering of a shape before it is finished. -/
def Shape.lowerParts (s : Shape) (path : Path) : Lowering AnfExpr := do
  let names ← atomizeAll path s.operands
  let bodies ← lowerAll path (s.bodies.map (·.2))
  pure (s.rebuild names bodies)

variable (path : Path)

theorem atomizeFields_eq (fields : List (String × CoreExpr)) :
    atomizeFields path fields = (do
      let names ← atomizeAll path (fields.map (·.2))
      pure ((fields.map (·.1)).zip (names.map .var))) := by
  induction fields with
  | nil => simp [atomizeFields, atomizeAll]
  | cons field fields ih => simp [atomizeFields, atomizeAll, ih]

theorem atomizeEntries_eq (entries : List (CoreExpr × CoreExpr)) :
    atomizeEntries path entries = (do
      let names ← atomizeAll path (entries.flatMap fun entry => [entry.1, entry.2])
      pure (pairNames names)) := by
  induction entries with
  | nil => simp [atomizeEntries, atomizeAll, pairNames]
  | cons entry entries ih => simp [atomizeEntries, atomizeAll, ih, pairNames]

theorem atomizeOption_eq (payload : Option CoreExpr) :
    atomizeOption path payload = (do
      let names ← atomizeAll path payload.toList
      pure names.head?) := by
  cases payload <;> simp [atomizeOption, atomizeAll]

theorem lowerArms_eq (arms : List (String × CoreExpr)) :
    lowerArms path arms = (do
      let bodies ← lowerAll path (arms.map (·.2))
      pure ((arms.map (·.1)).zip bodies)) := by
  induction arms with
  | nil => simp [lowerArms, lowerAll]
  | cons arm arms ih => simp [lowerArms, lowerAll, ih]

/-- A form without parts emits nothing, so it is finished as it is. -/
theorem form_pure (e : AnfExpr) : form path (pure e) = pure e := by
  cases path <;> rfl

theorem operator_eq (lowering : Lowering AnfExpr) : operator lowering = form .localPath lowering :=
  rfl

variable {e : CoreExpr} {s : Shape}

/-- Both lowerings of a shape name its operands, lower its bodies and
finish the rebuilt form. -/
theorem lowerCoreExpr_shape (hshape : e.shape = some s) (path : Path) :
    lowerCoreExpr path e = form (s.path path) (s.lowerParts (s.path path)) := by
  cases e <;> cases hshape <;>
    simp [lowerCoreExpr, Shape.lowerParts, Shape.path, atomizeAll, lowerAll, form_pure,
      atomizeFields_eq, atomizeEntries_eq, atomizeOption_eq, lowerArms_eq, operator_eq,
      Function.comp_def]

/-! ## The free variables of a shape -/

variable {x : String}

theorem mem_freeVarsAll {es : List CoreExpr} : x ∈ freeVarsAll es ↔ ∃ e ∈ es, x ∈ e.freeVars := by
  induction es with
  | nil => simp [freeVarsAll]
  | cons e es ih => simp [freeVarsAll, ih]

theorem mem_freeVarsFields {fields : List (String × CoreExpr)} :
    x ∈ freeVarsFields fields ↔ ∃ e ∈ fields.map (·.2), x ∈ e.freeVars := by
  induction fields with
  | nil => simp [freeVarsFields]
  | cons field fields ih => simp [freeVarsFields, ih]

theorem mem_freeVarsEntries {entries : List (CoreExpr × CoreExpr)} :
    x ∈ freeVarsEntries entries ↔
      ∃ e ∈ entries.flatMap (fun entry => [entry.1, entry.2]), x ∈ e.freeVars := by
  induction entries with
  | nil => simp [freeVarsEntries]
  | cons entry entries ih =>
    rw [freeVarsEntries, mem_append, ih, flatMap_cons]
    simp only [mem_append, mem_cons, not_mem_nil, or_false, or_and_right, exists_or, exists_eq_left]

theorem mem_freeVarsOption {payload : Option CoreExpr} :
    x ∈ freeVarsOption payload ↔ ∃ e ∈ payload.toList, x ∈ e.freeVars := by
  cases payload <;> simp [freeVarsOption]

theorem mem_freeVarsArms {arms : List (String × CoreExpr)} :
    x ∈ freeVarsArms arms ↔
      ∃ body ∈ arms.map (fun arm => (armBinders arm.1, arm.2)), x ∈ body.2.freeVars ∧
        x ∉ body.1 := by
  induction arms with
  | nil => simp [freeVarsArms]
  | cons arm arms ih =>
    rw [freeVarsArms, mem_append, mem_without, ih, map_cons]
    simp only [mem_cons, or_and_right, exists_or, exists_eq_left]

/-- A shape reads what its operands read, and what its bodies read beyond
the names they bind. -/
theorem mem_freeVars_shape (hshape : e.shape = some s) :
    x ∈ e.freeVars ↔ (∃ operand ∈ s.operands, x ∈ operand.freeVars) ∨
      ∃ body ∈ s.bodies, x ∈ body.2.freeVars ∧ x ∉ body.1 := by
  cases e <;> cases hshape <;>
    simp [CoreExpr.freeVars, mem_freeVarsAll, mem_freeVarsFields, mem_freeVarsEntries,
      mem_freeVarsOption, mem_freeVarsArms]

variable {names : List String}

theorem mem_freeVarsAll_var : x ∈ AnfExpr.freeVarsAll (names.map .var) ↔ x ∈ names := by
  induction names with
  | nil => simp [AnfExpr.freeVarsAll]
  | cons name names ih => simp [AnfExpr.freeVarsAll, freeVars, ih]

theorem mem_freeVarsFields_var :
    ∀ {labels names : List String}, names.length = labels.length →
      (x ∈ AnfExpr.freeVarsFields (labels.zip (names.map .var)) ↔ x ∈ names)
  | [], [], _ => by simp [AnfExpr.freeVarsFields]
  | _ :: labels, name :: names, hlength => by
    have ih := mem_freeVarsFields_var (Nat.succ.inj hlength : names.length = labels.length)
    simp [AnfExpr.freeVarsFields, freeVars, ih]

theorem mem_pairNames :
    ∀ {names : List String}, names.length % 2 = 0 →
      (x ∈ (pairNames names).flatMap (fun (key, value) => [key, value]) ↔ x ∈ names)
  | [], _ => by simp [pairNames]
  | [_], heven => by simp at heven
  | key :: value :: rest, heven => by
    have heven : rest.length % 2 = 0 := by simp only [length_cons] at heven; omega
    have ih := mem_pairNames heven
    rw [pairNames, flatMap_cons, mem_append, ih]
    simp [or_assoc]

theorem mem_freeVarsArms_zip :
    ∀ {arms : List (String × CoreExpr)} {bodies : List AnfExpr}, bodies.length = arms.length →
      (x ∈ AnfExpr.freeVarsArms ((arms.map (·.1)).zip bodies) ↔
        ∃ lowered ∈ (arms.map fun arm => (armBinders arm.1, arm.2)).zip bodies,
          x ∈ lowered.2.freeVars ∧ x ∉ lowered.1.1)
  | [], [], _ => by simp [AnfExpr.freeVarsArms]
  | arm :: arms, body :: bodies, hlength => by
    have ih := mem_freeVarsArms_zip (Nat.succ.inj hlength : bodies.length = arms.length)
    rw [map_cons, zip_cons_cons, AnfExpr.freeVarsArms, mem_append, ih]
    simp

/-- The rebuilt form reads the names of its operands, and what its lowered
bodies read beyond the names bound there. -/
theorem mem_freeVars_rebuild (hshape : e.shape = some s)
    (hnames : names.length = s.operands.length) {bodies : List AnfExpr}
    (hbodies : bodies.length = s.bodies.length) :
    x ∈ (s.rebuild names bodies).freeVars ↔ x ∈ names ∨
      ∃ lowered ∈ s.bodies.zip bodies, x ∈ lowered.2.freeVars ∧ x ∉ lowered.1.1 := by
  cases e with cases hshape
  | literal _ | continueLoop | abort _ =>
    obtain rfl := length_eq_zero_iff.1 hnames
    simp [freeVars]
  | call _ _ | effectCall _ _ _ | binary _ _ _ | not _ | setNew _ =>
    simp [freeVars]
  | tupleNew _ | listNew _ =>
    simp [freeVars, mem_freeVarsAll_var]
  | recordNew fields =>
    have hlabels : names.length = (fields.map (·.1)).length := by simpa using hnames
    simp [freeVars, mem_freeVarsFields_var hlabels]
  | mapNew entries =>
    have heven : names.length % 2 = 0 := by
      rw [hnames]
      simp
    simp only [freeVars, mem_pairNames heven]
    simp
  | variantNew _ payload =>
    cases payload with
    | none =>
      obtain rfl := length_eq_zero_iff.1 hnames
      simp [freeVars, AnfExpr.freeVarsOption]
    | some _ =>
      obtain ⟨_, rfl⟩ := length_eq_one_iff.1 hnames
      simp [freeVars, AnfExpr.freeVarsOption]
  | matchOn _ arms =>
    obtain ⟨scrutinee, rfl⟩ := length_eq_one_iff.1 hnames
    have harms : bodies.length = arms.length := by simpa using hbodies
    simp [freeVars, mem_freeVarsArms_zip harms]
  | fieldGet _ _ | cellNew _ | cellGet _ =>
    obtain ⟨_, rfl⟩ := length_eq_one_iff.1 hnames
    simp [freeVars]
  | fieldUpdate _ _ _ | cellSet _ _ | indexGet _ _ =>
    obtain ⟨_, _, rfl⟩ := length_eq_two.1 hnames
    simp [freeVars]
  | fold _ _ _ =>
    obtain ⟨_, _, _, rfl⟩ := length_eq_three.1 hnames
    simp [freeVars]
  | loop _ _ | breakWith _ =>
    obtain rfl := length_eq_zero_iff.1 hnames
    obtain ⟨_, rfl⟩ := length_eq_one_iff.1 hbodies
    simp [freeVars]
  | letIn _ _ _ =>
    obtain rfl := length_eq_zero_iff.1 hnames
    obtain ⟨_, _, rfl⟩ := length_eq_two.1 hbodies
    simp [freeVars]
  | and _ _ | or _ _ | forEach _ _ _ =>
    obtain ⟨_, rfl⟩ := length_eq_one_iff.1 hnames
    obtain ⟨_, rfl⟩ := length_eq_one_iff.1 hbodies
    simp [freeVars]
  | ifElse _ _ _ =>
    obtain ⟨_, rfl⟩ := length_eq_one_iff.1 hnames
    obtain ⟨_, _, rfl⟩ := length_eq_two.1 hbodies
    simp [freeVars]

end Ail.Compiler
