import Ail.Cli.SourceValidate
import Ail.Lib.DepthFirst

/-!
# Loading source programs

`load_source_program` (`source_commands/parse.rs`): a file is parsed, its
imports are loaded one after the other, and the whole is validated before
it is returned to the file that imports it. The files are loaded depth
first, each once: a file that was loaded for another import already
contributes nothing.

The file system, the parser of one file and two of the passes (variables
and types) are parameters. `loadSourceProgram` is an instance of
`Ail.Lib.load`.
-/

namespace Ail.Cli

open Ail.Core Change Lib List

structure SourceContext where
  canonicalize : List Char → Option (List Char)
  readToString : List Char → Option (List Char)
  parseAilSource : List Char → Except SourceError SourceUnit
  validateVars : VariableCheck
  validateTypes : SourceUnit → Except SourceError Unit

/-- A path beside the importing file, unless it is absolute. -/
def resolveSourceImport (sourcePath importPath : List Char) : List Char :=
  if importPath.head? = some '/' then importPath
  else sourcePath.rdropWhile (· ≠ '/') ++ importPath

section

variable (context : SourceContext)

/-- The path and the text of a file. -/
def SourceContext.openSource (path : List Char) : Except SourceError (List Char × List Char) :=
  match context.canonicalize path with
  | none => .error (.unresolved path)
  | some canonical =>
    match context.readToString canonical with
    | none => .error (.unreadable canonical)
    | some text => .ok (canonical, text)

/-- The passes over a combined program. -/
def SourceContext.validate (unit : SourceUnit) : Except SourceError SourceUnit := do
  let unit ← resolveSourceProgramGrants unit
  validateSourceProgramSymbols unit
  validateSourceProgramGrants unit
  validateSourceProgramCalls context.validateVars unit
  validateSourceProgramEffectCalls unit
  context.validateTypes unit
  .ok unit

def SourceContext.loader : Loader (List Char) SourceUnit SourceError where
  opened path := do
    let (_, text) ← context.openSource path
    let program ← context.parseAilSource text
    .ok (program, program.imports.map fun importPath =>
      (context.openSource (resolveSourceImport path importPath)).map (·.1))
  empty := {}
  extend := SourceUnit.extend
  close combined program :=
    context.validate { combined.extend program with module := program.module }

/-- The load of a file; `fuel` bounds the depth of the imports. -/
def loadSourceProgram (fuel : Nat) (path : List Char) :
    Except (LoadError (List Char) SourceError) SourceUnit := do
  let (canonical, _) ← (context.openSource path).mapError .failed
  let (program, _) ← load context.loader fuel [] [] canonical
  .ok program

variable {context}

/-! ## Effects -/

/-- A part of a body: what its calls come apart into, and every part of
an expression whose text it is. -/
def PartOf (sub body : List Char) : Prop :=
  Occurs sub body ∨
    ∃ part expr : LoweredExpr, expr.WellFormed ∧ expr.render = body ∧ Subexpr part expr ∧
      part.render = sub

theorem PartOf.occurs {sub body : List Char} (h : PartOf sub body) : Occurs sub body := by
  rcases h with h | ⟨part, expr, hexpr, rfl, hsub, rfl⟩
  · exact h
  · exact occurs_render hsub hexpr

variable {program unit : SourceUnit}

theorem SourceContext.validate_eq_ok (hvalid : context.validate unit = .ok program) :
    resolveSourceProgramGrants unit = .ok program ∧
      validateSourceProgramEffectCalls program = .ok () := by
  obtain ⟨resolved, hresolved, hvalid⟩ := bind_eq_ok.1 hvalid
  obtain ⟨_, _, hvalid⟩ := bind_eq_ok.1 hvalid
  obtain ⟨_, _, hvalid⟩ := bind_eq_ok.1 hvalid
  obtain ⟨_, _, hvalid⟩ := bind_eq_ok.1 hvalid
  obtain ⟨_, heffects, hvalid⟩ := bind_eq_ok.1 hvalid
  obtain ⟨_, _, hok⟩ := bind_eq_ok.1 hvalid
  cases hok
  exact ⟨hresolved, heffects⟩

open SourceContext

/-- Whatever is loaded, a function or test performs an effect, however
deep in its body, only with the capability declared and granted to it,
and no constant performs one. -/
theorem loadSourceProgram_grants_effects {fuel : Nat} {path : List Char} {program : SourceUnit}
    (hload : loadSourceProgram context fuel path = .ok program) {sub capability : List Char}
    (hperforms : performs sub = some capability) :
    (∀ item ∈ program.items, PartOf sub item.2 →
      capability ∈ program.capabilities ∧ ⟨item.1, capability⟩ ∈ program.grants) ∧
    ∀ constant ∈ program.constants, ¬ PartOf sub constant.body := by
  obtain ⟨⟨canonical, _⟩, _, hload⟩ := bind_eq_ok.1 hload
  obtain ⟨⟨loaded, visited⟩, hroot, hok⟩ := bind_eq_ok.1 hload
  cases hok
  obtain ⟨combined, own, hclose⟩ := load_closes (by simp) hroot
  obtain ⟨hitems, hconstants⟩ :=
    validateSourceProgramEffectCalls_sound (validate_eq_ok hclose).2 hperforms
  exact ⟨fun item hitem hpart => hitems item hitem hpart.occurs,
    fun constant hconstant hpart => hconstants constant hconstant hpart.occurs⟩

/-- A file whose function prints, with the grant. -/
def printingUnit : SourceUnit where
  capabilities := [logCapability]
  functions :=
    [⟨"fn.main".toList, [], "Unit".toList, "if(true, print(\"a, (b\"), unit())".toList⟩]
  grants := [⟨"fn.main".toList, logCapability⟩]

def printingContext : SourceContext where
  canonicalize := some
  readToString := some
  parseAilSource _ := .ok printingUnit
  validateVars _ _ _ := .ok ()
  validateTypes _ := .ok ()

theorem loadSourceProgram_grants_print :
    ∃ program, loadSourceProgram printingContext 1 "/main.ail".toList = .ok program ∧
      ⟨"fn.main".toList, logCapability⟩ ∈ program.grants := by
  have hload : loadSourceProgram printingContext 1 "/main.ail".toList = .ok printingUnit := by
    decide +kernel
  have hoccurs : Occurs "print(\"a, (b\")".toList "if(true, print(\"a, (b\"), unit())".toList :=
    @Occurs.arg _ _ "if".toList _ ["true".toList, "print(\"a, (b\")".toList, "unit()".toList]
      (by decide +kernel) (.tail _ (.head _)) .here
  have hperforms : performs "print(\"a, (b\")".toList = some logCapability := by decide +kernel
  exact ⟨printingUnit, hload, ((loadSourceProgram_grants_effects hload hperforms).1 _
    (.head _) (.inl hoccurs)).2⟩

/-! ## Imports -/

/-- The files behind a program: each is read and parsed, and each import
leads to another of them. -/
structure ImportGraph (context : SourceContext) where
  files : Finset (List Char)
  text : List Char → List Char
  unit : List Char → SourceUnit
  imported : List Char → List (List Char)
  opens : ∀ path ∈ files, context.openSource path = .ok (path, text path)
  parses : ∀ path ∈ files, context.parseAilSource (text path) = .ok (unit path)
  resolves : ∀ path ∈ files, ((unit path).imports.map fun importPath =>
    (context.openSource (resolveSourceImport path importPath)).map (·.1)) = (imported path).map .ok
  closed : ∀ path ∈ files, ∀ other ∈ imported path, other ∈ files

variable (graph : ImportGraph context)

theorem ImportGraph.opened {path : List Char} (hpath : path ∈ graph.files) :
    context.loader.opened path = .ok (graph.unit path, (graph.imported path).map .ok) := by
  simp [loader, graph.opens path hpath, graph.parses path hpath, graph.resolves path hpath, bind,
    Except.bind]

/-- The files of a list put together, one after the other, with the grants
of each as they are resolved. -/
def ImportGraph.together (granted : List Char → List SourceGrant) (order : List (List Char)) :
    SourceUnit :=
  (order.map fun path => { graph.unit path with grants := granted path }).foldl SourceUnit.extend {}

/-- A file validates with all the files it reaches, in whatever order: its
declarations are accepted beside theirs, and its grants resolved. -/
def ImportGraph.Validates (granted : List Char → List SourceGrant) (path : List Char) : Prop :=
  ∀ order : List (List Char), order.Nodup →
    (∀ other, other ∈ order ↔ Relation.TransGen (Refers graph.imported) path other) →
    context.validate { (graph.together granted order).extend (graph.unit path) with
        module := (graph.unit path).module } =
      .ok { graph.together granted (order ++ [path]) with module := (graph.unit path).module }

theorem foldl_extend (units : List SourceUnit) (unit : SourceUnit) :
    units.foldl SourceUnit.extend unit = unit.extend (units.foldl SourceUnit.extend {}) := by
  induction units generalizing unit with
  | nil => simp [SourceUnit.extend]
  | cons other units ih =>
    rw [foldl_cons, foldl_cons, ih, ih (SourceUnit.extend {} other)]
    simp [SourceUnit.extend]

theorem ImportGraph.together_append (granted : List Char → List SourceGrant)
    (order order' : List (List Char)) : graph.together granted (order ++ order') =
      (graph.together granted order).extend (graph.together granted order') := by
  rw [together, map_append, foldl_append, foldl_extend]
  rfl

theorem ImportGraph.together_module (granted : List Char → List SourceGrant)
    (order : List (List Char)) : (graph.together granted order).module = none := by
  rw [together, foldl_extend]
  rfl

/-- The loader puts files together, the name of the module apart, which is
that of the file sealed last. -/
theorem ImportGraph.seals {granted : List Char → List SourceGrant}
    (hvalid : ∀ path ∈ graph.files, AcyclicBelow graph.imported path →
      graph.Validates granted path) :
    Seals context.loader graph.imported graph.unit graph.files fun loaded order =>
      { loaded with module := none } = graph.together granted order where
  opened _ := graph.opened
  closed := graph.closed
  empty := rfl
  extend ha hb := by
    rw [graph.together_append, ← ha, ← hb]
    rfl
  close {combined order path} hpath hacyclic hnodup hbelow hcombined := by
    have hsealed := hvalid path hpath hacyclic order hnodup hbelow
    rw [← hcombined] at hsealed
    refine ⟨_, hsealed, ?_⟩
    have hmodule := graph.together_module granted (order ++ [path])
    generalize graph.together granted (order ++ [path]) = unit at hmodule
    obtain ⟨_, _, _⟩ := unit
    cases hmodule
    rfl

end

/-! ### A shared import -/

namespace SharedImport

/-- Files with one function each: name, imports and body. Both `b` and
`c` use `d`, `a` uses these two, and `m` uses `b` and `e`. -/
def sources : List (String × List String × String) :=
  [("d", [], "1"), ("e", [], "2"), ("b", ["d"], "d()"), ("c", ["d"], "d()"),
    ("a", ["b", "c"], "add(b(), c())"), ("m", ["b", "e"], "add(b(), e())")]

def file (name : String) : List Char := '/' :: (name ++ ".ail").toList

def source (path : List Char) : Option (String × List String × String) :=
  sources.find? fun source => file source.1 = path

def unit (path : List Char) : SourceUnit :=
  (source path).elim {} fun (name, uses, body) =>
    { imports := uses.map fun other => ("./" ++ other ++ ".ail").toList
      functions := [⟨("fn." ++ name).toList, [], "Int".toList, body.toList⟩] }

def imported (path : List Char) : List (List Char) :=
  (source path).elim [] fun (_, uses, _) => uses.map file

def context : SourceContext where
  canonicalize
    | '/' :: '.' :: '/' :: rest => some ('/' :: rest)
    | path => some path
  readToString := some
  parseAilSource text := .ok (unit text)
  validateVars _ _ _ := .ok ()
  validateTypes _ := .ok ()

def graph : ImportGraph context where
  files := (sources.map (file ·.1)).toFinset
  text path := path
  unit := unit
  imported := imported
  opens := by decide +kernel
  parses _ _ := rfl
  resolves := by decide +kernel
  closed := by decide +kernel

/-- The files below each file. -/
def below (path : List Char) : List (List Char) :=
  ((source path).elim [] fun (_, uses, _) =>
    uses ++ uses.flatMap fun other => ((source (file other)).elim [] (·.2.1))).dedup.map file

end SharedImport

end Ail.Cli
