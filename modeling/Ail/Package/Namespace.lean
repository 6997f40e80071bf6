import Ail.Core.Text
import Ail.Lib.Pick

/-!
# Who owns a symbol

Packages own namespaces, and a symbol lies in every namespace whose
qualified name it extends. Two checks decide whether a package owns a
symbol: `NamespaceOwnershipCheck` (`namespace.rs`) asks the most specific
namespace, the orphan rule (`coherence.rs`) is content with any. They
agree unless the package owns an outer namespace and not the innermost.
-/

namespace Ail.Package

open Ail.Core Lib List

/-! ## Namespaces -/

inductive NamespaceKind where
  | package
  | type
  | handler
  | capability

def NamespaceKind.display : NamespaceKind → String
  | .package => "pkg"
  | .type => "type"
  | .handler => "handler"
  | .capability => "cap"

structure PackageNamespace where
  owner : String
  namespacePath : String
  kind : NamespaceKind

namespace PackageNamespace

def qualifiedPrefix (ns : PackageNamespace) : String := ns.kind.display ++ "." ++ ns.namespacePath

/-- The length in bytes of the part of the symbol that the namespace
determines. -/
def symbolMatchSpecificity (ns : PackageNamespace) (symbol : String) : Option Nat :=
  if symbol = ns.qualifiedPrefix ∨ startsWith symbol (ns.qualifiedPrefix ++ ".") then
    some ns.qualifiedPrefix.utf8ByteSize
  else none

def containsSymbol (ns : PackageNamespace) (symbol : String) : Bool :=
  (ns.symbolMatchSpecificity symbol).isSome

end PackageNamespace

/-! ## The namespace check -/

inductive OwnershipError where
  | unauthorizedNamespace (symbol namespaceOwner claimant : String)

def compareMatches (left right : Nat × PackageNamespace) : Ordering :=
  (compare left.1 right.1).then
    ((compare left.2.qualifiedPrefix right.2.qualifiedPrefix).then
      (compare left.2.owner right.2.owner))

/-- `max_by`: of equal candidates the last. -/
def matchingNamespace (symbol : String) (namespaces : List PackageNamespace) :
    Option PackageNamespace :=
  (pick (fun next best => compareMatches best next ≠ .gt)
    (namespaces.filterMap fun ns =>
      (ns.symbolMatchSpecificity symbol).map fun specificity => (specificity, ns))).map (·.2)

def NamespaceOwnershipCheck.check (symbol claimant : String) (namespaces : List PackageNamespace) :
    Except OwnershipError Unit :=
  match matchingNamespace symbol namespaces with
  | some ns =>
    if ns.owner ≠ claimant then .error (.unauthorizedNamespace symbol ns.owner claimant) else .ok ()
  | none => .ok ()

/-! ## The orphan rule -/

structure InterfaceImpl where
  implementor : String
  interface : String
  forType : String
  isAdapter : Bool

inductive CoherenceError where
  | orphanViolation (implementor interface forType : String)
  | conflictingImpl (implementorA implementorB interface forType : String)

namespace CoherenceChecker

/-- The loop of `owns_in_namespaces`, with its flag. -/
def ownsIn (implementor symbol : String) : Bool → List PackageNamespace → Bool
  | covered, [] => !covered
  | covered, ns :: rest =>
    if ns.containsSymbol symbol then
      if ns.owner = implementor then true else ownsIn implementor symbol true rest
    else ownsIn implementor symbol covered rest

def ownsInNamespaces (implementor symbol : String) (namespaces : List PackageNamespace) : Bool :=
  ownsIn implementor symbol false namespaces

def orphans (namespaces : List PackageNamespace) (impls : List InterfaceImpl) :
    List CoherenceError :=
  (impls.filter fun i => !i.isAdapter &&
    !ownsInNamespaces i.implementor i.interface namespaces &&
    !ownsInNamespaces i.implementor i.forType namespaces).map
      fun i => .orphanViolation i.implementor i.interface i.forType

/-- Every pair of implementations of one interface for one type. -/
def conflicts : List InterfaceImpl → List CoherenceError
  | [] => []
  | a :: rest =>
    (rest.filter fun b => a.interface = b.interface ∧ a.forType = b.forType).map
      (fun b => .conflictingImpl a.implementor b.implementor a.interface a.forType) ++
    conflicts rest

def checkWithNamespaces (impls : List InterfaceImpl) (namespaces : List PackageNamespace) :
    List CoherenceError :=
  orphans namespaces impls ++ conflicts (impls.filter (!·.isAdapter))

end CoherenceChecker

variable {symbol : String} {ns other : PackageNamespace}

/-! ## Nested namespaces -/

namespace PackageNamespace

theorem symbolMatchSpecificity_eq_some {specificity : Nat} :
    ns.symbolMatchSpecificity symbol = some specificity ↔
      ns.containsSymbol symbol ∧ specificity = ns.qualifiedPrefix.utf8ByteSize := by
  rw [containsSymbol, symbolMatchSpecificity]
  split <;> simp [eq_comm]

theorem toList_isPrefix (hcontains : ns.containsSymbol symbol) :
    ns.qualifiedPrefix.toList <+: symbol.toList := by
  rw [containsSymbol, symbolMatchSpecificity] at hcontains
  split at hcontains
  · rename_i hmatch
    rcases hmatch with rfl | hstarts
    · exact prefix_rfl
    · have hextended := isPrefixOf_iff_prefix.1 hstarts
      rw [String.toList_append] at hextended
      exact (prefix_append _ _).trans hextended
  · cases hcontains

theorem eq_of_isPrefix {shorter longer : String} (hleading : shorter.toList <+: longer.toList)
    (hsize : shorter.utf8ByteSize = longer.utf8ByteSize) : shorter = longer := by
  obtain ⟨rest, hrest⟩ := hleading
  have happend : longer = shorter ++ String.ofList rest := by
    rw [← String.toList_inj, String.toList_append, String.toList_ofList, hrest]
  rw [happend, String.utf8ByteSize_append] at hsize
  have hempty : String.ofList rest = "" := String.utf8ByteSize_eq_zero_iff.1 (by omega)
  rw [happend, hempty, String.append_empty]

/-- Of the namespaces a symbol lies in, the length tells which. -/
theorem qualifiedPrefix_eq (hns : ns.containsSymbol symbol) (hother : other.containsSymbol symbol)
    (hsize : ns.qualifiedPrefix.utf8ByteSize = other.qualifiedPrefix.utf8ByteSize) :
    ns.qualifiedPrefix = other.qualifiedPrefix := by
  rcases prefix_or_prefix_of_prefix (toList_isPrefix hns) (toList_isPrefix hother) with h | h
  · exact eq_of_isPrefix h hsize
  · exact (eq_of_isPrefix h hsize.symm).symm

end PackageNamespace

/-- Inside a symbol, one namespace is at most as specific as another. -/
def NoMoreSpecific (ns other : PackageNamespace) : Prop :=
  ns.qualifiedPrefix.utf8ByteSize < other.qualifiedPrefix.utf8ByteSize ∨
    ns.qualifiedPrefix = other.qualifiedPrefix ∧ (compare ns.owner other.owner).isLE

/-- Two namespaces neither of which is more specific have one owner. -/
theorem noMoreSpecific_antisymm (hle : NoMoreSpecific ns other) (hge : NoMoreSpecific other ns) :
    ns.owner = other.owner := by
  obtain hlt | ⟨heq, howner⟩ := hle
  · obtain hgt | ⟨heq, -⟩ := hge
    · omega
    · rw [heq] at hlt
      omega
  · obtain hgt | ⟨-, howner'⟩ := hge
    · rw [heq] at hgt
      omega
    · exact Std.LawfulEqOrd.eq_of_compare (Std.OrientedCmp.isLE_antisymm howner howner')

instance : Std.TransCmp compareMatches :=
  inferInstanceAs
    (Std.TransCmp (compareLex (compareOn fun entry : Nat × PackageNamespace => entry.1)
    (compareLex (compareOn fun entry => entry.2.qualifiedPrefix)
      (compareOn fun entry => entry.2.owner))))

theorem compareMatches_isLE_iff (hns : ns.containsSymbol symbol)
    (hother : other.containsSymbol symbol) :
    (compareMatches (ns.qualifiedPrefix.utf8ByteSize, ns)
      (other.qualifiedPrefix.utf8ByteSize, other)).isLE ↔ NoMoreSpecific ns other := by
  rw [compareMatches, NoMoreSpecific]
  rcases Nat.lt_trichotomy ns.qualifiedPrefix.utf8ByteSize other.qualifiedPrefix.utf8ByteSize with
    hlt | heq | hgt
  · simp [Nat.compare_eq_lt.2 hlt, hlt]
  · have hleading := PackageNamespace.qualifiedPrefix_eq hns hother heq
    simp [hleading]
  · have hne : ns.qualifiedPrefix ≠ other.qualifiedPrefix := fun h => by simp [h] at hgt
    simp [Nat.compare_eq_gt.2 hgt, hne, Nat.le_of_lt hgt]

variable {namespaces : List PackageNamespace}

/-- The namespace `check` asks: the symbol lies in it, and in none that is
more specific. -/
theorem matchingNamespace_spec {best : PackageNamespace}
    (hbest : matchingNamespace symbol namespaces = some best) :
    best ∈ namespaces ∧ best.containsSymbol symbol ∧
      ∀ ns ∈ namespaces, ns.containsSymbol symbol → NoMoreSpecific ns best := by
  obtain ⟨⟨specificity, best⟩, hpick, rfl⟩ := Option.map_eq_some_iff.1 hbest
  have hcandidate : ∀ {size : Nat} {ns : PackageNamespace},
      (size, ns) ∈ namespaces.filterMap (fun ns =>
        (ns.symbolMatchSpecificity symbol).map fun specificity => (specificity, ns)) ↔
      ns ∈ namespaces ∧ ns.containsSymbol symbol ∧ size = ns.qualifiedPrefix.utf8ByteSize := by
    intro size ns
    simp only [mem_filterMap, Option.map_eq_some_iff, Prod.mk.injEq,
      PackageNamespace.symbolMatchSpecificity_eq_some]
    constructor
    · rintro ⟨ns, hmem, size, ⟨hcontains, hsize⟩, rfl, rfl⟩
      exact ⟨hmem, hcontains, hsize⟩
    · rintro ⟨hmem, hcontains, hsize⟩
      exact ⟨ns, hmem, size, ⟨hcontains, hsize⟩, rfl, rfl⟩
  obtain ⟨hmem, hcontains, rfl⟩ := hcandidate.1 (mem_of_pick hpick)
  refine ⟨hmem, hcontains, fun ns hns hother => ?_⟩
  rw [← compareMatches_isLE_iff hother hcontains]
  refine @pick_max _ _ (fun a b => (compareMatches a b).isLE) (fun _ => Std.ReflCmp.isLE_rfl)
    (fun _ _ _ => Std.TransCmp.isLE_trans) (fun next kept hreplaces => ?_)
    (fun next kept hkeeps => ?_) _ _ hpick _ (hcandidate.2 ⟨hns, hother, rfl⟩)
  · exact Ordering.isLE_iff_ne_gt.2 (of_decide_eq_true hreplaces)
  · have hgt : compareMatches kept next = .gt := by simpa using hkeeps
    simp [Std.OrientedCmp.gt_iff_lt.1 hgt]

theorem matchingNamespace_eq_none :
    matchingNamespace symbol namespaces = none ↔
      ∀ ns ∈ namespaces, ns.containsSymbol symbol = false := by
  rw [matchingNamespace, Option.map_eq_none_iff, pick_eq_none_iff]
  simp [PackageNamespace.containsSymbol]

/-! ## The two checks compared -/

namespace CoherenceChecker

theorem ownsIn_iff {implementor : String} {covered : Bool} :
    ownsIn implementor symbol covered namespaces = true ↔
      (∃ ns ∈ namespaces, ns.containsSymbol symbol ∧ ns.owner = implementor) ∨
      (covered = false ∧ ∀ ns ∈ namespaces, ns.containsSymbol symbol = false) := by
  induction namespaces generalizing covered with
  | nil => simp [ownsIn]
  | cons ns rest ih =>
    rw [ownsIn]
    split
    · split
      · simp [*]
      · simp [*]
    · simp [*]

end CoherenceChecker

theorem NamespaceOwnershipCheck.check_eq_ok {claimant : String} :
    check symbol claimant namespaces = .ok () ↔
      ∀ ns, matchingNamespace symbol namespaces = some ns → ns.owner = claimant := by
  rw [check]
  cases matchingNamespace symbol namespaces with
  | none => simp
  | some ns => by_cases howner : ns.owner = claimant <;> simp

/-- The checks agree on a symbol and a package exactly if the package, in
case it owns a namespace the symbol lies in, also owns a most specific
one, and comes last among the owners of that. -/
theorem ownership_checks_agree_iff (implementor symbol : String)
    (namespaces : List PackageNamespace) :
    (CoherenceChecker.ownsInNamespaces implementor symbol namespaces = true ↔
      NamespaceOwnershipCheck.check symbol implementor namespaces = .ok ()) ↔
    ((∃ ns ∈ namespaces, ns.containsSymbol symbol ∧ ns.owner = implementor) →
      ∃ best ∈ namespaces, best.containsSymbol symbol ∧ best.owner = implementor ∧
        ∀ ns ∈ namespaces, ns.containsSymbol symbol → NoMoreSpecific ns best) := by
  rw [CoherenceChecker.ownsInNamespaces, CoherenceChecker.ownsIn_iff,
    NamespaceOwnershipCheck.check_eq_ok]
  cases hmatch : matchingNamespace symbol namespaces with
  | none =>
    have hnone := matchingNamespace_eq_none.1 hmatch
    have hunowned : ¬∃ ns ∈ namespaces, ns.containsSymbol symbol ∧ ns.owner = implementor := by
      rintro ⟨ns, hmem, hcontains, -⟩
      exact Bool.false_ne_true ((hnone ns hmem).symm.trans hcontains)
    exact iff_of_true (iff_of_true (.inr ⟨rfl, hnone⟩) fun _ h => nomatch h)
      fun howned => absurd howned hunowned
  | some best =>
    obtain ⟨hmem, hcontains, hmost⟩ := matchingNamespace_spec hmatch
    have hcovered : ¬∀ ns ∈ namespaces, ns.containsSymbol symbol = false := fun hnone =>
      Bool.false_ne_true ((hnone best hmem).symm.trans hcontains)
    simp only [Option.some.injEq, forall_eq', hcovered, and_false, or_false]
    constructor
    · intro hagree howned
      exact ⟨best, hmem, hcontains, hagree.1 howned, hmost⟩
    · intro hcond
      refine ⟨fun howned => ?_, fun howner => ⟨best, hmem, hcontains, howner⟩⟩
      obtain ⟨own, hown, hownContains, rfl, hownMost⟩ := hcond howned
      exact noMoreSpecific_antisymm (hownMost best hmem hcontains) (hmost own hown hownContains)

/-- A namespace inside another one, owned by another package. -/
def nestedNamespaces : List PackageNamespace :=
  [⟨"payments", "payments", .type⟩, ⟨"payments.stripe", "payments.stripe", .type⟩]

/-- The owner of the outer namespace passes the orphan rule for a type and
an interface it may not publish. -/
theorem outer_owner_passes_orphan_rule :
    CoherenceChecker.ownsInNamespaces "payments" "type.payments.stripe.Request" nestedNamespaces =
      true ∧
    NamespaceOwnershipCheck.check "type.payments.stripe.Request" "payments" nestedNamespaces =
      .error (.unauthorizedNamespace "type.payments.stripe.Request" "payments.stripe" "payments") ∧
    CoherenceChecker.checkWithNamespaces
      [⟨"payments", "type.payments.stripe.Charge", "type.payments.stripe.Request", false⟩]
      nestedNamespaces = [] :=
  ⟨by decide, rfl, by decide⟩

end Ail.Package
