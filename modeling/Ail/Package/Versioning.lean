import Ail.Core.Text

/-!
# Version requirements

How a constraint of a dependency is read (`versioning.rs`): a bare
version, possibly shortened, is an exact requirement; anything else goes
to the range parser of the `semver` crate, after blanks between
comparators were turned into commas. The crate is a parameter.
-/

namespace Ail.Package

open Ail.Core

/-- What the `semver` crate offers. -/
structure Semver (Version Req : Type) where
  parseVersion : String → Option Version
  parseReq : String → Option Req
  accepts : Req → Version → Bool

inductive VersionRequirementIssueCode where
  | requirementEmpty
  | requirementInvalid

def VersionRequirementIssueCode.display : VersionRequirementIssueCode → String
  | .requirementEmpty => "requirement.empty"
  | .requirementInvalid => "requirement.invalid"

inductive VersionRequirementShape where
  | empty
  | exact
  | caret
  | tilde
  | comparator
  | other

def VersionRequirementShape.display : VersionRequirementShape → String
  | .empty => "empty"
  | .exact => "exact"
  | .caret => "caret"
  | .tilde => "tilde"
  | .comparator => "comparator"
  | .other => "other"

/-- The only kind of issue is `requirement`, which is also its category. -/
structure VersionRequirementIssue where
  code : VersionRequirementIssueCode
  shape : VersionRequirementShape
  charLen : Nat
  reason : String

def VersionRequirementIssue.category (_issue : VersionRequirementIssue) : String := "requirement"

def numericPart (part : List Char) : Bool := !part.isEmpty && part.all (·.isDigit)

section

variable {Version Req : Type} (semver : Semver Version Req)

/-- `1.2` stands for `1.2.0` and `1` for `1.0.0`. -/
def normalizeVersion (version : String) : Option String :=
  if (semver.parseVersion version).isSome then some version
  else match splitAtChar '.' version.toList with
    | [major, minor] =>
      if numericPart major && numericPart minor then
        some (String.ofList major ++ "." ++ String.ofList minor ++ ".0")
      else none
    | [major] => if numericPart major then some (String.ofList major ++ ".0.0") else none
    | _ => none

variable (requirement : String)

def exactRequirement : Option String :=
  (normalizeVersion semver requirement).map ("=" ++ ·)

def isComparatorRequirement : Bool :=
  startsWith requirement "<" || startsWith requirement ">" || startsWith requirement "="

def rangeRequirement : String :=
  let trimmed := trim requirement.toList
  if trimmed.contains ',' || !isComparatorRequirement (String.ofList trimmed) then
    String.ofList trimmed
  else
    String.ofList (replacePair ' ' '=' ", =".toList
      (replacePair ' ' '>' ", >".toList (replacePair ' ' '<' ", <".toList trimmed)))

def versionRequirementShape : VersionRequirementShape :=
  let trimmed := String.ofList (trim requirement.toList)
  if trimmed.isEmpty then .empty
  else if (exactRequirement semver trimmed).isSome then .exact
  else if startsWith trimmed "^" then .caret
  else if startsWith trimmed "~" then .tilde
  else if isComparatorRequirement trimmed then .comparator
  else .other

def versionRequirementError (code : VersionRequirementIssueCode) (reason : String) :
    VersionRequirementIssue :=
  ⟨code, versionRequirementShape semver requirement, requirement.toList.length, reason⟩

/-- `VersionRequirement::parse`. -/
def parseRequirement : Except VersionRequirementIssue Req :=
  let trimmed := String.ofList (trim requirement.toList)
  if trimmed.isEmpty then
    .error (versionRequirementError semver trimmed .requirementEmpty
      "version requirement must not be empty")
  else
    match semver.parseReq ((exactRequirement semver trimmed).getD (rangeRequirement trimmed)) with
    | some req => .ok req
    | none => .error (versionRequirementError semver trimmed .requirementInvalid
        "version requirement must be exact, caret, tilde, or comparator syntax")

end

end Ail.Package
