import Ail.Verify.BodyScan
import Ail.Verify.TypeRefinements

/-!
# The translation validator

`TranslationValidator::check`: does the graph survive lowering? Bodies
need a return type and effects a provider in every profile; in `prod` and
stricter profiles the effects a body uses must be declared, and in
`critical` ones declared effects need evidence. An unknown profile counts
as `critical`.
-/

namespace Ail.Verify

open Ail.Core Lib

def isProdOrStricter (profile : String) : Bool :=
  profile ∈ ["prod", "staging", "critical"] || profile ∉ ["draft", "dev", "test"]

def isCriticalLike (profile : String) : Bool :=
  profile = "critical" || profile ∉ ["draft", "dev", "test", "staging", "prod"]

/-! ## Shape -/

variable (node : GraphNode)

def shapeEntry : VerificationEntry :=
  if node.returnType = none then
    makeEntry "translation-validation/shape" .unverified node.name
      (some ("E_TV_SHAPE_NO_RETURN_TYPE: function '" ++ node.name ++ "' has body_expr but no " ++
        "declared return_type; return type is required for typed Core IR lowering"))
      ["declare a return type annotation on the function signature",
        "if the function is a trait method, add a concrete return type to the implementation"]
  else
    makeEntry "translation-validation/shape" .proven node.name
      (some ("function '" ++ node.name ++
        "' has body_expr and declared return_type; shape consistent")) []

variable (graph : SemanticGraph)

def checkShape : List VerificationEntry :=
  (graph.nodes.filter fun node => node.kind = .function ∧ node.bodyExpr.isSome).map shapeEntry

/-! ## Provenance of effects -/

def provenanceEntry : VerificationEntry :=
  match orderedSet ((effectsOf node).filter fun effect => !effect.toList.contains ':') with
  | [] =>
    makeEntry "translation-validation/provenance" .proven node.name
      (some (toString (orderedSet (effectsOf node)).length ++
        " declared effect(s) follow 'name:Provider' format; provenance traceable")) []
  | malformed =>
    makeEntry "translation-validation/provenance" .unverified node.name
      (some ("E_TV_EFFECT_MALFORMED: effect(s) [" ++ ", ".intercalate malformed ++ "] in '" ++
        node.name ++ "' lack 'name:Provider' separator; provenance cannot be traced through " ++
        "Core IR lowering"))
      ["reformat the effect declaration to 'name:Provider' (e.g., 'db:Postgres')",
        "verify the effect name uses the canonical 'name:Provider' handler-binding format"]

def checkEffectProvenance : List VerificationEntry :=
  (graph.nodes.filter fun node => effectsOf node ≠ []).map provenanceEntry

/-! ## Effect obligations -/

/-- A declaration `name:Provider` covers the identifier `name`. -/
def effectIsDeclared (declared : List String) (ident : String) : Bool :=
  declared.any fun decl => decl = ident || startsWith decl (ident ++ ":")

def effectObligationEntry (bodyEffects : List String) : VerificationEntry :=
  match bodyEffects.filter (!effectIsDeclared (orderedSet (effectsOf node)) ·) with
  | [] =>
    makeEntry "translation-validation/effect-obligation" .proven node.name
      (some ("all " ++ toString bodyEffects.length ++ " body effect(s) declared in effect_row; " ++
        "control-flow/effect obligation satisfied")) []
  | undeclared =>
    makeEntry "translation-validation/effect-obligation" .failed node.name
      (some ("E_TV_EFFECT_UNDECLARED: body of '" ++ node.name ++ "' uses effect(s) [" ++
        ", ".intercalate undeclared ++ "] not declared in effect_row; undeclared effects cannot " ++
        "be lowered to Core IR safely"))
      ["add the missing effect(s) to the function's effect_row declaration",
        "remove the effect call from the body if the effect is unintended"]

variable (tables : CharTables)

def effectObligations (node : GraphNode) : Except Panic (List VerificationEntry) :=
  match node.bodyExpr with
  | none => .ok []
  | some body =>
    (extractBodyEffects tables body.toList).map fun bodyEffects =>
      if bodyEffects = [] then [] else [effectObligationEntry node bodyEffects]

def checkEffectObligations (graph : SemanticGraph) : Except Panic (List VerificationEntry) :=
  ((graph.nodes.filter (·.kind = .function)).mapM (effectObligations tables)).map List.flatten

/-! ## Evidence -/

def evidenceEntry : VerificationEntry :=
  let declared := orderedSet (effectsOf node)
  if node.bodyExpr = none ∧ node.runtimeChecks.getD [] = [] then
    makeEntry "translation-validation/evidence-sufficiency" .failed node.name
      (some ("E_TV_INSUFFICIENT_EVIDENCE: function '" ++ node.name ++ "' declares " ++
        toString declared.length ++ " effect(s) [" ++ ", ".intercalate declared ++
          "] but has no " ++
        "body_expr and no runtime_checks; critical profile requires at least one evidence path " ++
        "through the translation chain"))
      ["provide a body_expr with at least one effect call to serve as implementation evidence",
        "add runtime_checks entries to serve as evidence for the declared effects",
        "move the function to a less restrictive profile if critical evidence is not required"]
  else
    makeEntry "translation-validation/evidence-sufficiency" .proven node.name
      (some ("function '" ++ node.name ++ "' has evidence path for " ++ toString declared.length ++
        " declared effect(s); translation sufficiency satisfied")) []

def checkEvidenceSufficiency : List VerificationEntry :=
  (graph.nodes.filter fun node => node.kind = .function ∧ effectsOf node ≠ []).map evidenceEntry

/-! ## All checks -/

def translationClaimRank (claim : String) : Nat :=
  if claim = "translation-validation/shape" then 0
  else if claim = "translation-validation/provenance" then 1
  else if claim = "translation-validation/effect-obligation" then 2
  else if claim = "translation-validation/evidence-sufficiency" then 3
  else if claim = "translation-validation/summary" then 4
  else 9

/-- The obligations the profile asks for. -/
def profileObligations (graph : SemanticGraph) (profile : String) :
    Except Panic (List VerificationEntry) :=
  if isProdOrStricter profile then checkEffectObligations tables graph else .ok []

def TranslationValidator.check (graph : SemanticGraph) (profile : String) :
    Except Panic (List VerificationEntry) :=
  (profileObligations tables graph profile).map fun obligations =>
    let evidence := if isCriticalLike profile then checkEvidenceSufficiency graph else []
    match normalizeEntries translationClaimRank
        (checkShape graph ++ checkEffectProvenance graph ++ obligations ++ evidence) with
    | [] =>
      [makeEntry "translation-validation/summary" .proven "translation_validation"
        (some "all translation validation checks passed") []]
    | entries => entries

/-! ## When it returns -/

/-- Where effect obligations are checked, every character of more than
one byte in a function's body stands in calls of all three keywords. -/
def EffectsReadable (profile : String) : Prop :=
  isProdOrStricter profile = true →
    ∀ node ∈ graph.nodes, node.kind = .function → ∀ body, node.bodyExpr = some body →
      ∀ keyword ∈ effectKeywords, Enclosed keyword.toList body.toList

variable {tables : CharTables}

theorem effectObligations_ok_iff {node : GraphNode} :
    (∃ entries, effectObligations tables node = .ok entries) ↔
      ∀ body, node.bodyExpr = some body →
        ∀ keyword ∈ effectKeywords, Enclosed keyword.toList body.toList := by
  unfold effectObligations
  cases node.bodyExpr with
  | none => simp
  | some body =>
    rw [exists_map_eq_ok_iff, extractBodyEffects_ok_iff]
    simp

variable {graph : SemanticGraph}

theorem checkEffectObligations_ok_iff :
    (∃ entries, checkEffectObligations tables graph = .ok entries) ↔
      ∀ node ∈ graph.nodes, node.kind = .function → ∀ body, node.bodyExpr = some body →
        ∀ keyword ∈ effectKeywords, Enclosed keyword.toList body.toList := by
  rw [checkEffectObligations, exists_map_eq_ok_iff, exists_mapM_eq_ok_iff]
  simp [effectObligations_ok_iff]

theorem translationValidator_ok_iff {profile : String} :
    (∃ entries, TranslationValidator.check tables graph profile = .ok entries) ↔
      EffectsReadable graph profile := by
  rw [TranslationValidator.check, exists_map_eq_ok_iff, profileObligations, EffectsReadable]
  split
  next hstrict => simp [hstrict, checkEffectObligations_ok_iff]
  next hstrict => simp [hstrict]

end Ail.Verify
