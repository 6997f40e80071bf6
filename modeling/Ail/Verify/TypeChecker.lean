import Ail.Verify.TypeRefinements

/-!
# The type checker

`TypeChecker::check` runs its subpasses over a graph and concatenates
their entries. The theorem here is about the entries on the arguments of
one call, from three of the subpasses.
-/

namespace Ail.Verify

open Ail.Core Lib VerificationEntry List TypeContext

/-- The subpasses, in the order in which they run. -/
def TypeChecker.subpasses (std : TextStd) (graph : SemanticGraph) : List (List VerificationEntry) :=
  let ctx := TypeContext.collect graph
  let tables := std.toCharTables
  [checkNominalPresence graph, checkNominalCalls graph ctx, checkGenericParams tables graph,
    checkGenericCallBindings graph ctx, checkEffectCapabilityPropagation graph ctx,
    checkVariance graph ctx, checkStructuralAndDynCalls graph ctx, checkInterfaceCoherence graph,
    checkConstraints graph ctx, checkRefinementObligations graph,
    checkBoundaryMaterialization graph (inferLocalTypes ctx graph), checkNullPolicy std graph,
    checkFloatPolicy graph, checkPatchfield graph, checkPartialOrd graph,
    checkBoundaryInference graph, checkAssociatedTypeResolution std graph ctx,
    checkConstParamCallBindings tables graph ctx, checkBoundarySchema graph,
    checkEffectCapabilityParamThreading graph ctx, checkBlanketImplCoherence std graph ctx]

/-- `TypeChecker::check`, its entries. -/
def TypeChecker.check (std : TextStd) (graph : SemanticGraph) : VerificationReport :=
  ⟨(TypeChecker.subpasses std graph).flatten⟩

/-! ## The entries on the arguments of one call -/

/-- What the three subpasses on arguments say of one edge. -/
def callEntries (ctx : TypeContext) (edge : GraphEdge) : List VerificationEntry :=
  checkArguments ctx edge nominalCallEntries ++ checkArguments ctx edge varianceEntries ++
    checkArguments ctx edge (structuralAndDynEntries ctx)

variable {graph : SemanticGraph} {std : TextStd}

theorem mem_check_of_mem_callEntries {edge : GraphEdge} {entry : VerificationEntry}
    (hedge : edge ∈ graph.edges) (hentry : entry ∈ callEntries (collect graph) edge) :
    entry ∈ (TypeChecker.check std graph).entries := by
  simp only [callEntries, mem_append, or_assoc] at hentry
  refine mem_flatten.2 ?_
  obtain hentry | hentry | hentry := hentry
  · exact ⟨checkNominalCalls graph (collect graph), by simp [TypeChecker.subpasses],
      mem_flatMap.2 ⟨edge, hedge, hentry⟩⟩
  · exact ⟨checkVariance graph (collect graph), by simp [TypeChecker.subpasses],
      mem_flatMap.2 ⟨edge, hedge, hentry⟩⟩
  · exact ⟨checkStructuralAndDynCalls graph (collect graph),
      by simp [TypeChecker.subpasses], mem_flatMap.2 ⟨edge, hedge, hentry⟩⟩

section Arguments

variable {ctx : TypeContext} {edge : GraphEdge} {site : CallSite}

/-- A check of single arguments fails nowhere if it fails for no pair. -/
theorem noneFailed_checkArguments
    {check : GraphNode → String → String → ParamDecl → List VerificationEntry}
    {Passes : String → ParamDecl → Prop} (hsite : callSite ctx edge = some site)
    (hcheck : ∀ scope argTy param, NoneFailed (check site.callee scope argTy param) ↔
      Passes argTy param) :
    NoneFailed (checkArguments ctx edge check) ↔
      ∀ pair ∈ site.args.zip site.params, Passes pair.1 pair.2 := by
  simp only [checkArguments, hsite, NoneFailed, mem_flatMap, forall_exists_index, and_imp]
  constructor
  · intro hnone pair hpair
    obtain ⟨i, hget⟩ := mem_iff_getElem?.1 hpair
    refine (hcheck (argumentScope edge site.callee i) _ _).1 fun entry hentry => ?_
    exact hnone entry (pair, i) (mem_zipIdx_iff_getElem?.2 hget) hentry
  · intro hpasses entry indexed hindexed hentry
    obtain ⟨pair, i⟩ := indexed
    have hpair := mem_of_getElem? (mem_zipIdx_iff_getElem?.1 hindexed)
    exact (hcheck _ _ _).2 (hpasses pair hpair) entry hentry

variable (callee : GraphNode) (scope argTy : String) (param : ParamDecl)

theorem noneFailed_nominalCallEntries :
    NoneFailed (nominalCallEntries callee scope argTy param) ↔ argTy = param.ty := by
  unfold nominalCallEntries
  split <;> simp_all

theorem noneFailed_varianceEntries :
    NoneFailed (varianceEntries callee scope argTy param) ↔
      ('<' ∈ argTy.toList → '<' ∈ param.ty.toList →
        (splitGeneric argTy.toList).1 = (splitGeneric param.ty.toList).1 →
        (splitGeneric argTy.toList).2 = (splitGeneric param.ty.toList).2) := by
  unfold varianceEntries
  simp only
  split_ifs with hplain hbase
  · simp only [noneFailed_nil, true_iff]
    intro harg hparam
    simp [harg, hparam] at hplain
  all_goals simp_all

/-- The argument type has the required fields: as a `struct`, or by the
extra constraints of its node. -/
def SatisfiesStruct (ctx : TypeContext) (argTy : String) (required : List String) : Prop :=
  (∃ actual, structuralFields argTy = some actual ∧ required ⊆ actual) ∨
    structuralFields argTy = none ∧ ∃ node constraints, ctx.getByName argTy = some node ∧
      node.constraintSet = some constraints ∧
      ∀ field ∈ required, field ∈ constraints.extras ∨ "field:" ++ field ∈ constraints.extras

/-- The node of the argument type implements the interface. -/
def Implements (ctx : TypeContext) (argTy interface : String) : Prop :=
  ∃ node impls, ctx.getByName argTy = some node ∧ node.interfaceImpls = some impls ∧
    ∃ impl ∈ impls, impl.interface = interface

theorem structuralTypeSatisfies_iff {argTy : String} {required : List String} :
    structuralTypeSatisfies ctx argTy required = true ↔ SatisfiesStruct ctx argTy required := by
  unfold structuralTypeSatisfies SatisfiesStruct
  cases hfields : structuralFields argTy with
  | some actual => simp [subset_def]
  | none =>
    have hfield : ∀ extra field : String, stripFront "field:" extra.toList = some field.toList ↔
        extra = "field:" ++ field := by
      intro extra field
      rw [stripFront_eq_some_iff, ← String.toList_append, String.toList_inj]
    cases hnode : ctx.getByName argTy with
    | none => simp
    | some node =>
      cases hconstraints : node.constraintSet with
      | none => simp [hconstraints]
      | some constraints => simp [hconstraints, hfield, and_or_left, exists_or]

theorem implementsInterface_iff {argTy interface : String} :
    implementsInterface ctx argTy interface = true ↔ Implements ctx argTy interface := by
  unfold implementsInterface Implements
  cases hnode : ctx.getByName argTy with
  | none => simp
  | some node =>
    cases himpls : node.interfaceImpls with
    | none => simp [himpls]
    | some impls => simp [himpls]

theorem noneFailed_structuralEntries :
    NoneFailed (structuralEntries ctx scope argTy param) ↔
      ∀ required, structuralFields param.ty = some required →
        SatisfiesStruct ctx argTy required := by
  unfold structuralEntries
  cases structuralFields param.ty with
  | none => simp
  | some required =>
    simp only [forall_eq', Option.some.injEq, ← structuralTypeSatisfies_iff]
    split <;> simp_all

theorem noneFailed_dynEntries :
    NoneFailed (dynEntries ctx scope argTy param) ↔
      ∀ interface, dynInterface param.ty = some interface → Implements ctx argTy interface := by
  unfold dynEntries
  cases dynInterface param.ty with
  | none => simp
  | some interface =>
    simp only [forall_eq', Option.some.injEq, ← implementsInterface_iff]
    split <;> simp_all

theorem noneFailed_structuralAndDynEntries :
    NoneFailed (structuralAndDynEntries ctx callee scope argTy param) ↔
      (∀ required, structuralFields param.ty = some required →
        SatisfiesStruct ctx argTy required) ∧
      ∀ interface, dynInterface param.ty = some interface → Implements ctx argTy interface := by
  rw [structuralAndDynEntries, noneFailed_append, noneFailed_structuralEntries,
    noneFailed_dynEntries]

/-! ## What the entries decide -/

/-- The type of the parameter is a `struct` requirement that the argument
satisfies, or a `Dyn` interface that it implements. -/
def Coerces (ctx : TypeContext) (argTy : String) (param : ParamDecl) : Prop :=
  (∃ required, structuralFields param.ty = some required ∧ SatisfiesStruct ctx argTy required) ∨
    ∃ interface, dynInterface param.ty = some interface ∧ Implements ctx argTy interface

/-- An argument that should pass. -/
def ArgumentFits (ctx : TypeContext) (argTy : String) (param : ParamDecl) : Prop :=
  argTy = param.ty ∨ Coerces ctx argTy param

/-- An argument that should pass and does not: its type is another one, or
it is the `Dyn<I>` of the parameter and no node of that very name
implements `I`. -/
def Deviates (ctx : TypeContext) (argTy : String) (param : ParamDecl) : Prop :=
  argTy ≠ param.ty ∧ Coerces ctx argTy param ∨
    argTy = param.ty ∧ ∃ interface, dynInterface param.ty = some interface ∧
      ¬ Implements ctx argTy interface

/-- A type satisfies the structural requirement that it is. -/
theorem satisfiesStruct_self {ty : String} {required : List String}
    (hfields : structuralFields ty = some required) : SatisfiesStruct ctx ty required :=
  .inl ⟨required, hfields, Subset.refl _⟩

/-- What passes: an argument of the type of the parameter, with a node
that implements it in case of a `Dyn` type. -/
theorem fits_and_not_deviates_iff {argTy : String} {param : ParamDecl} :
    ArgumentFits ctx argTy param ∧ ¬ Deviates ctx argTy param ↔ argTy = param.ty ∧
      ∀ interface, dynInterface param.ty = some interface → Implements ctx argTy interface := by
  unfold ArgumentFits Deviates
  constructor
  · rintro ⟨hfits, hnot⟩
    have hsame : argTy = param.ty := by
      by_contra hne
      exact hnot (.inl ⟨hne, hfits.resolve_left hne⟩)
    refine ⟨hsame, fun interface hdyn => ?_⟩
    by_contra hmissing
    exact hnot (.inr ⟨hsame, interface, hdyn, hmissing⟩)
  · rintro ⟨hsame, himplements⟩
    refine ⟨.inl hsame, ?_⟩
    rintro (⟨hne, -⟩ | ⟨-, interface, hdyn, hmissing⟩)
    · exact hne hsame
    · exact hmissing (himplements interface hdyn)

/-- The three subpasses together. A type equal to the parameter's
violates neither invariance nor a structural requirement. -/
theorem noneFailed_callEntries (hsite : callSite ctx edge = some site) :
    NoneFailed (callEntries ctx edge) ↔ ∀ pair ∈ site.args.zip site.params,
      ArgumentFits ctx pair.1 pair.2 ∧ ¬ Deviates ctx pair.1 pair.2 := by
  rw [callEntries, noneFailed_append, noneFailed_append,
    noneFailed_checkArguments hsite (noneFailed_nominalCallEntries site.callee),
    noneFailed_checkArguments hsite (noneFailed_varianceEntries site.callee),
    noneFailed_checkArguments hsite (noneFailed_structuralAndDynEntries site.callee)]
  simp only [fits_and_not_deviates_iff]
  constructor
  · rintro ⟨⟨hnominal, -⟩, hstructural⟩ pair hpair
    exact ⟨hnominal pair hpair, (hstructural pair hpair).2⟩
  · intro hpasses
    refine ⟨⟨fun pair hpair => (hpasses pair hpair).1, fun pair hpair _ _ _ => ?_⟩,
      fun pair hpair => ⟨fun required hfields => ?_, (hpasses pair hpair).2⟩⟩
    · rw [(hpasses pair hpair).1]
    · rw [(hpasses pair hpair).1]
      exact satisfiesStruct_self hfields

/-- The report of the type checker holds no failure about the arguments
of the call. -/
def ReportsNoFailure (std : TextStd) (graph : SemanticGraph) (edge : GraphEdge) : Prop :=
  ∀ entry ∈ (TypeChecker.check std graph).entries,
    entry ∈ callEntries (TypeContext.collect graph) edge → entry.state ≠ .failed

/-- Every parameter gets an argument that fits, and no argument is left. -/
def CallSite.WellTyped (ctx : TypeContext) (site : CallSite) : Prop :=
  site.args.length = site.params.length ∧
    ∀ pair ∈ site.args.zip site.params, ArgumentFits ctx pair.1 pair.2

theorem reportsNoFailure_iff (hedge : edge ∈ graph.edges)
    (hsite : callSite (collect graph) edge = some site) :
    ReportsNoFailure std graph edge ↔ ∀ pair ∈ site.args.zip site.params,
      ArgumentFits (collect graph) pair.1 pair.2 ∧ ¬ Deviates (collect graph) pair.1 pair.2 := by
  rw [← noneFailed_callEntries hsite]
  exact ⟨fun hnone entry hentry => hnone entry (mem_check_of_mem_callEntries hedge hentry) hentry,
    fun hnone entry _ hentry => hnone entry hentry⟩

/-- The report on a call agrees with its being well typed exactly if some
argument does not fit its parameter, or as many arguments are given as
there are parameters and none deviates, or another number and one does. -/
theorem check_call_arguments_iff {std : TextStd} {graph : SemanticGraph}
    (hedge : edge ∈ graph.edges)
    (hsite : callSite (TypeContext.collect graph) edge = some site) :
    (ReportsNoFailure std graph edge ↔ site.WellTyped (TypeContext.collect graph)) ↔
      (∃ pair ∈ site.args.zip site.params, ¬ ArgumentFits (collect graph) pair.1 pair.2) ∨
      (site.args.length = site.params.length ∧
        ∀ pair ∈ site.args.zip site.params, ¬ Deviates (collect graph) pair.1 pair.2) ∨
      site.args.length ≠ site.params.length ∧
        ∃ pair ∈ site.args.zip site.params, Deviates (collect graph) pair.1 pair.2 := by
  rw [reportsNoFailure_iff hedge hsite, CallSite.WellTyped]
  have hmisfit : (∃ pair ∈ site.args.zip site.params,
      ¬ ArgumentFits (collect graph) pair.1 pair.2) ↔ ¬ ∀ pair ∈ site.args.zip site.params,
      ArgumentFits (collect graph) pair.1 pair.2 := by
    push Not
    rfl
  have hnone : (∀ pair ∈ site.args.zip site.params, ¬ Deviates (collect graph) pair.1 pair.2) ↔
      ¬ ∃ pair ∈ site.args.zip site.params, Deviates (collect graph) pair.1 pair.2 := by
    push Not
    rfl
  rw [hmisfit, hnone, forall₂_and, hnone]
  by_cases hfit : ∀ pair ∈ site.args.zip site.params, ArgumentFits (collect graph) pair.1 pair.2
  · rw [and_iff_right hfit, and_iff_left hfit, or_iff_right (not_not.2 hfit)]
    by_cases hdeviates : ∃ pair ∈ site.args.zip site.params, Deviates (collect graph) pair.1 pair.2
    · rw [and_iff_left hdeviates, iff_false_left (not_not.2 hdeviates)]
      exact ⟨.inr, fun h => h.resolve_left fun hnone => hnone.2 hdeviates⟩
    · rw [and_iff_left hdeviates, iff_true_left hdeviates]
      exact ⟨.inl, fun h => h.resolve_right fun hsome => hdeviates hsome.2⟩
  · -- a failure is reported, and the call is not well typed
    exact iff_of_true (iff_of_false (fun h => hfit h.1) fun h => hfit h.2) (.inl hfit)

end Arguments

/-- A function with parameters of the given types, and a call of it with
arguments of the given types. -/
def callee (paramTypes : List String) : GraphNode :=
  { id := ⟨1⟩, kind := .function, name := "area", params := some (paramTypes.map (⟨"p", ·⟩)) }

def callEdge (argTypes : List String) : GraphEdge :=
  { source := ⟨0⟩, target := ⟨1⟩, kind := .calls, callArgs := some argTypes }

def callGraph (argTypes paramTypes : List String) : SemanticGraph :=
  ⟨[{ id := ⟨0⟩, kind := .function, name := "main" }, callee paramTypes], [callEdge argTypes]⟩

/-- A call that is well typed and reported as such. -/
theorem check_call_arguments_nominal :
    (ReportsNoFailure .ascii (callGraph ["Int"] ["Int"]) (callEdge ["Int"]) ↔
      CallSite.WellTyped (TypeContext.collect (callGraph ["Int"] ["Int"]))
        ⟨["Int"], callee ["Int"], [⟨"p", "Int"⟩]⟩) ∧
      CallSite.WellTyped (TypeContext.collect (callGraph ["Int"] ["Int"]))
        ⟨["Int"], callee ["Int"], [⟨"p", "Int"⟩]⟩ := by
  refine ⟨(check_call_arguments_iff (by decide) (by decide)).2 (.inr (.inl ⟨rfl, ?_⟩)), ?_⟩
  · simp [Deviates, show dynInterface "Int" = none by decide]
  · simp [CallSite.WellTyped, ArgumentFits]

/-- No failure is reported where an argument is missing, and one is
reported for an argument that has the field the parameter asks for. -/
theorem check_call_arguments_diverges :
    (callSite (TypeContext.collect (callGraph [] ["Int"])) (callEdge []) =
        some ⟨[], callee ["Int"], [⟨"p", "Int"⟩]⟩ ∧
      ReportsNoFailure .ascii (callGraph [] ["Int"]) (callEdge []) ∧
      ¬ CallSite.WellTyped (TypeContext.collect (callGraph [] ["Int"]))
        ⟨[], callee ["Int"], [⟨"p", "Int"⟩]⟩) ∧
    (callSite (TypeContext.collect (callGraph ["struct\x7bx,y\x7d"] ["struct\x7bx\x7d"]))
        (callEdge ["struct\x7bx,y\x7d"]) =
        some ⟨["struct\x7bx,y\x7d"], callee ["struct\x7bx\x7d"], [⟨"p", "struct\x7bx\x7d"⟩]⟩ ∧
      ¬ ReportsNoFailure .ascii (callGraph ["struct\x7bx,y\x7d"] ["struct\x7bx\x7d"])
        (callEdge ["struct\x7bx,y\x7d"]) ∧
      CallSite.WellTyped
        (TypeContext.collect (callGraph ["struct\x7bx,y\x7d"] ["struct\x7bx\x7d"]))
        ⟨["struct\x7bx,y\x7d"], callee ["struct\x7bx\x7d"], [⟨"p", "struct\x7bx\x7d"⟩]⟩) := by
  constructor
  · have hsite : callSite (collect (callGraph [] ["Int"])) (callEdge []) =
        some ⟨[], callee ["Int"], [⟨"p", "Int"⟩]⟩ := by decide
    exact ⟨hsite, (reportsNoFailure_iff (by decide) hsite).2 (by simp),
      by simp [CallSite.WellTyped]⟩
  · have hsite : callSite
        (collect (callGraph ["struct\x7bx,y\x7d"] ["struct\x7bx\x7d"]))
        (callEdge ["struct\x7bx,y\x7d"]) =
        some ⟨["struct\x7bx,y\x7d"], callee ["struct\x7bx\x7d"],
          [⟨"p", "struct\x7bx\x7d"⟩]⟩ := by decide
    refine ⟨hsite, fun hreport => ?_, by decide, ?_⟩
    · have hpasses := (reportsNoFailure_iff (by decide) hsite).1 hreport
        ("struct\x7bx,y\x7d", ⟨"p", "struct\x7bx\x7d"⟩) (by decide)
      exact absurd (fits_and_not_deviates_iff.1 hpasses).1 (by decide)
    · simp only [zip_cons_cons, zip_nil_right, mem_singleton, forall_eq]
      exact .inr (.inl ⟨["x"], by decide, structuralTypeSatisfies_iff.1 (by decide)⟩)

end Ail.Verify
