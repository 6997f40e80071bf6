import Ail.Package.Preflight

/-!
# Advisories against version requirements

Dependencies and advisories read constraints in two ways. A dependency's
constraint is trimmed, a shortened version is completed, and blanks
between comparators become commas (`VersionRequirement::parse`). An
advisory's constraint goes to the `semver` crate as it stands, and only
if it begins with an operator; otherwise, and if the crate does not
accept it, it is compared with the version as a text. A version the
first reading accepts is therefore not always reported.
-/

namespace Ail.Package

open Ail.Core List

/-! ## What is taken from the crate -/

/-- How the crate reads versions and requirements. The precedence of a
version is all of it but the build metadata. -/
structure Semver.Laws {Version Req Precedence : Type} (semver : Semver Version Req)
    (precedence : Version → Precedence) : Prop where
  version_unique : ∀ {text other version}, semver.parseVersion text = some version →
    semver.parseVersion other = some version → text = other
  version_ne_nil : ∀ {text version}, semver.parseVersion text = some version → text.toList ≠ []
  version_not_blank : ∀ {text version}, semver.parseVersion text = some version →
    ∀ c ∈ text.toList, isWhitespace c = false
  version_not_operator : ∀ {text version}, semver.parseVersion text = some version →
    ∀ c ∈ text.toList, c ∉ ['<', '>', '^', '~', '=', '*']
  /-- An exact requirement accepts the versions of equal precedence. -/
  exact_accepts : ∀ {text version}, semver.parseVersion text = some version →
    ∃ req, semver.parseReq ("=" ++ text) = some req ∧
      ∀ other, semver.accepts req other = true ↔ precedence other = precedence version
  /-- Blanks around a requirement do not matter. -/
  req_trim : ∀ {text req}, semver.parseReq text = some req →
    semver.parseReq (String.ofList (trim text.toList)) = some req
  /-- Comparators are separated by commas. -/
  req_comparator : ∀ {text req}, semver.parseReq text = some req → trim text.toList = text.toList →
    ',' ∉ text.toList → ∀ before c after, text.toList = before ++ ' ' :: c :: after →
      c ∉ ['<', '>', '=']

variable {text : String}

theorem Semver.Laws.trim_version {Version Req Precedence : Type} {semver : Semver Version Req}
    {precedence : Version → Precedence} (laws : semver.Laws precedence) {version : Version}
    (hparsed : semver.parseVersion text = some version) : trim text.toList = text.toList :=
  trim_of_no_blank (laws.version_not_blank hparsed)

/-! ## Texts that begin with an operator -/

/-- The constraints an advisory hands to the crate. -/
def operatorStart (constraint : String) : Bool :=
  ["<", ">", "^", "~", "=", "*"].any (startsWith constraint)

variable {constraint : String}

theorem operatorStart_iff :
    operatorStart constraint = true ↔
      ∃ operator ∈ ['<', '>', '^', '~', '=', '*'], ∃ rest,
        constraint.toList = operator :: rest := by
  have hstarts : ∀ c : Char, startsWith constraint (String.singleton c) = true ↔
      ∃ rest, constraint.toList = c :: rest := by
    intro c
    rw [startsWith, isPrefixOf_iff_prefix, prefix_iff_exists_eq_append]
    simp
  simpa [operatorStart] using
    or_congr (hstarts '<') (or_congr (hstarts '>') (or_congr (hstarts '^')
      (or_congr (hstarts '~') (or_congr (hstarts '=') (hstarts '*')))))

variable {operator : Char}

theorem operator_plain (hmem : operator ∈ ['<', '>', '^', '~', '=', '*']) :
    isWhitespace operator = false ∧ operator.isDigit = false := by
  simp only [mem_cons, not_mem_nil, or_false] at hmem
  rcases hmem with rfl | rfl | rfl | rfl | rfl | rfl <;> decide

/-- Trimming keeps a first character that is not blank. -/
theorem trim_cons {c : Char} {cs : List Char} (hc : isWhitespace c = false) :
    ∃ rest, trim (c :: cs) = c :: rest := by
  rw [trim_eq_rdropWhile, dropWhile_cons_of_neg (by simp [hc])]
  obtain ⟨tail, htail⟩ := List.rdropWhile_prefix isWhitespace (c :: cs)
  cases hkept : (c :: cs).rdropWhile isWhitespace with
  | nil =>
    have hall := rdropWhile_eq_nil_iff.1 hkept c (.head _)
    rw [hc] at hall
    exact absurd hall Bool.false_ne_true
  | cons first rest =>
    rw [hkept] at htail
    exact ⟨rest, by rw [(List.cons.inj htail).1]⟩

theorem splitAtChar_cons {separator c : Char} (cs : List Char) (hc : c ≠ separator) :
    ∃ part parts, splitAtChar separator (c :: cs) = (c :: part) :: parts := by
  rw [splitAtChar, if_neg hc]
  split
  · exact ⟨[], [], rfl⟩
  · exact ⟨_, _, rfl⟩

theorem replacePair_eq_self {first second : Char} {replacement : List Char} :
    ∀ {cs : List Char}, (∀ before after, cs ≠ before ++ first :: second :: after) →
      replacePair first second replacement cs = cs
  | [], _ => rfl
  | [_], _ => rfl
  | a :: b :: rest, hnone => by
    have hpair : ¬(a = first ∧ b = second) := by
      rintro ⟨rfl, rfl⟩
      exact hnone [] rest rfl
    have hrest : ∀ before after, b :: rest ≠ before ++ first :: second :: after := by
      intro before after heq
      exact hnone (a :: before) after (by rw [heq]; rfl)
    rw [replacePair, if_neg hpair, replacePair_eq_self hrest]

section

variable {Version Req Precedence : Type} {semver : Semver Version Req}
  {precedence : Version → Precedence}

theorem normalizeVersion_operator (laws : semver.Laws precedence)
    (hmem : operator ∈ ['<', '>', '^', '~', '=', '*']) (rest : List Char) :
    normalizeVersion semver (String.ofList (operator :: rest)) = none := by
  have hversion : semver.parseVersion (String.ofList (operator :: rest)) = none := by
    cases hparsed : semver.parseVersion (String.ofList (operator :: rest)) with
    | none => rfl
    | some version =>
      have hnot := laws.version_not_operator hparsed operator
      rw [String.toList_ofList] at hnot
      exact absurd hmem (hnot (.head _))
  have hdigit := (operator_plain hmem).2
  have hdot : operator ≠ '.' := by
    rintro rfl
    simp at hmem
  obtain ⟨part, parts, hsplit⟩ := splitAtChar_cons rest hdot
  have hpart : numericPart (operator :: part) = false := by simp [numericPart, hdigit]
  rw [normalizeVersion, hversion, String.toList_ofList, hsplit]
  rcases parts with _ | ⟨second, _ | ⟨third, parts⟩⟩ <;> simp [hpart]

/-- A requirement the crate reads is left as it is. -/
theorem rangeRequirement_eq (laws : semver.Laws precedence) {req : Req}
    (hparse : semver.parseReq text = some req) (htrim : trim text.toList = text.toList) :
    rangeRequirement text = text := by
  rw [rangeRequirement, htrim, String.ofList_toList]
  split
  · rfl
  · rename_i hplain
    have hcomma : ',' ∉ text.toList := by
      intro hmem
      simp [hmem] at hplain
    have hnone : ∀ c ∈ ['<', '>', '='], ∀ before after,
        text.toList ≠ before ++ ' ' :: c :: after := by
      intro c hc before after heq
      exact laws.req_comparator hparse htrim hcomma before c after heq hc
    rw [replacePair_eq_self (hnone '<' (by simp)), replacePair_eq_self (hnone '>' (by simp)),
      replacePair_eq_self (hnone '=' (by simp)), String.ofList_toList]

/-- What an advisory hands to the crate means the same as a dependency's
constraint. -/
theorem parseRequirement_of_operatorStart (laws : semver.Laws precedence) {req : Req}
    (hstart : operatorStart constraint = true) (hparse : semver.parseReq constraint = some req) :
    parseRequirement semver constraint = .ok req := by
  obtain ⟨operator, hmem, rest, htext⟩ := operatorStart_iff.1 hstart
  obtain ⟨kept, htrim⟩ := @trim_cons operator rest (operator_plain hmem).1
  have hparse' := laws.req_trim hparse
  rw [htext, htrim] at hparse'
  have hagain : trim (String.ofList (operator :: kept)).toList =
      (String.ofList (operator :: kept)).toList := by
    rw [String.toList_ofList, ← htrim, trim_trim]
  have hnonempty : (String.ofList (operator :: kept)).isEmpty = false := by
    simp
  simp only [parseRequirement, htext, htrim, hnonempty, exactRequirement,
    normalizeVersion_operator laws hmem, rangeRequirement_eq laws hparse' hagain, Option.map_none,
    Option.getD_none, hparse', Bool.false_eq_true, if_false]

/-! ## Which accepted versions are reported -/

/-- For a version that the constraint of an advisory accepts, read as a
requirement, the advisory is reported exactly if its constraint begins
with an operator and the crate accepts it as it stands, or if it is the
version, letter by letter. -/
theorem versionMatches_iff_of_accepts (laws : semver.Laws precedence) {constraint version : String}
    {req : Req} {parsed : Version} (hreq : parseRequirement semver constraint = .ok req)
    (hversion : semver.parseVersion version = some parsed)
    (haccepts : semver.accepts req parsed = true) :
    AdvisoryChecker.versionMatches semver version constraint = true ↔
      (operatorStart constraint = true ∧ (semver.parseReq constraint).isSome) ∨
        constraint = version := by
  rw [AdvisoryChecker.versionMatches, ← operatorStart, hversion]
  cases hstart : operatorStart constraint with
  | false => simp
  | true =>
    have hdiffers : constraint ≠ version := by
      rintro rfl
      obtain ⟨operator, hmem, rest, htext⟩ := operatorStart_iff.1 hstart
      exact laws.version_not_operator hversion operator (by simp [htext]) hmem
    cases hparse : semver.parseReq constraint with
    | none => simp
    | some direct =>
      have hsame := parseRequirement_of_operatorStart laws hstart hparse
      cases hreq.symm.trans hsame
      simp [haccepts]

end

/-! ## Releases with build metadata -/

/-- A release, and the text of the version with its build metadata, which
decides between versions of equal precedence. -/
abbrev BuiltRelease : Type := Lex (Release × List Char)

def BuiltRelease.precedence (version : BuiltRelease) : Release := (ofLex version).1

/-- The characters of build metadata. -/
def isBuildChar (c : Char) : Bool := c.isAlphanum || c == '-' || c == '.'

/-- The release, if what follows it is build metadata. -/
def builtRelease (text : List Char) : Option Release :=
  match splitOnce '+' text with
  | none => release text
  | some (version, build) =>
    if build ≠ [] ∧ build.all isBuildChar then release version else none

/-- The `semver` crate on versions without a pre-release part, and on
requirements with one comparator. -/
def buildSemver : Semver BuiltRelease Comparator where
  parseVersion text := (builtRelease text.toList).map fun version => toLex (version, text.toList)
  parseReq text :=
    match text.toList with
    | '>' :: '=' :: version => (builtRelease version).map .atLeast
    | '<' :: version => (builtRelease version).map .below
    | '=' :: version => (builtRelease version).map .exactly
    | _ => none
  accepts requirement version := releaseSemver.accepts requirement version.precedence

/-- The characters of a version. -/
def isVersionChar (c : Char) : Bool := isBuildChar c || c == '+'

theorem mem_splitAtChar {separator c : Char} {cs : List Char} (hmem : c ∈ cs)
    (hc : c ≠ separator) : ∃ part ∈ splitAtChar separator cs, c ∈ part := by
  rw [← mem_flatten, flatten_splitAtChar]
  simp [hmem, hc]

theorem isDigit_of_number {digits : List Char} {n : Nat} (hnumber : number digits = some n) :
    ∀ c ∈ digits, c.isDigit = true := by
  intro c hmem
  unfold number at hnumber
  split at hnumber
  next hdigits =>
    have hall := hdigits.1
    rw [numericPart, Bool.and_eq_true, all_eq_true] at hall
    exact hall.2 c hmem
  next => exact nomatch hnumber

theorem isVersionChar_of_isDigit {c : Char} (hdigit : c.isDigit = true) :
    isVersionChar c = true := by
  simp [isVersionChar, isBuildChar, Char.isAlphanum, hdigit]

variable {version : Release}

theorem release_chars {text : List Char} (hrelease : release text = some version) :
    text ≠ [] ∧ ∀ c ∈ text, isVersionChar c = true := by
  unfold release at hrelease
  split at hrelease
  next major minor patch hparts =>
    constructor
    · rintro rfl
      simp [splitAtChar] at hparts
    · intro c hmem
      by_cases hdot : c = '.'
      · rw [hdot]
        rfl
      · obtain ⟨part, hpart, hc⟩ := mem_splitAtChar hmem hdot
        have hnumber : number part ∈ [some major, some minor, some patch] := by
          rw [← hparts]
          exact mem_map_of_mem hpart
        have hsome : ∃ n, number part = some n := by
          simp only [mem_cons, not_mem_nil, or_false] at hnumber
          rcases hnumber with h | h | h <;> exact ⟨_, h⟩
        obtain ⟨n, hn⟩ := hsome
        exact isVersionChar_of_isDigit (isDigit_of_number hn c hc)
  next => cases hrelease

theorem builtRelease_chars {text : List Char} (hbuilt : builtRelease text = some version) :
    text ≠ [] ∧ ∀ c ∈ text, isVersionChar c = true := by
  unfold builtRelease at hbuilt
  split at hbuilt
  next => exact release_chars hbuilt
  next before build hsplit =>
    split at hbuilt
    next hbuild =>
      obtain rfl := (splitOnce_parts hsplit).1
      refine ⟨by simp, fun c hmem => ?_⟩
      rcases mem_append.1 hmem with hbefore | hafter
      · exact (release_chars hbuilt).2 c hbefore
      · rcases mem_cons.1 hafter with rfl | hmeta
        · rfl
        · rw [isVersionChar, all_eq_true.1 hbuild.2 c hmeta, Bool.true_or]
    next => exact nomatch hbuilt

theorem toNat_of_isVersionChar {c : Char} (hchar : isVersionChar c = true) :
    (0x2B ≤ c.toNat ∧ c.toNat ≤ 0x2E) ∨ (0x30 ≤ c.toNat ∧ c.toNat ≤ 0x39) ∨
      (0x41 ≤ c.toNat ∧ c.toNat ≤ 0x5A) ∨ (0x61 ≤ c.toNat ∧ c.toNat ≤ 0x7A) := by
  delta isVersionChar isBuildChar Char.isAlphanum Char.isAlpha Char.isUpper Char.isLower
    Char.isDigit at hchar
  simp only [Bool.or_eq_true, Bool.and_eq_true, decide_eq_true_eq, beq_iff_eq] at hchar
  rcases hchar with ((((hupper | hlower) | hdigit) | rfl) | rfl) | rfl
  · exact .inr (.inr (.inl hupper))
  · exact .inr (.inr (.inr hlower))
  · exact .inr (.inl hdigit)
  all_goals decide

theorem isWhitespace_of_isVersionChar {c : Char} (hchar : isVersionChar c = true) :
    isWhitespace c = false := by
  have hrange := toNat_of_isVersionChar hchar
  by_contra hblank
  simp only [Bool.not_eq_false, isWhitespace, Bool.or_eq_true, Bool.and_eq_true,
    decide_eq_true_eq, beq_iff_eq] at hblank
  omega

theorem not_operator_of_isVersionChar {c : Char} (hchar : isVersionChar c = true) :
    c ∉ ['<', '>', '^', '~', '=', '*'] := by
  intro hmem
  have hrange := toNat_of_isVersionChar hchar
  simp only [mem_cons, not_mem_nil, or_false] at hmem
  rcases hmem with rfl | rfl | rfl | rfl | rfl | rfl <;> revert hrange <;> decide

theorem buildSemver_parseVersion {version : BuiltRelease}
    (hparsed : buildSemver.parseVersion text = some version) :
    builtRelease text.toList = some version.precedence ∧ (ofLex version).2 = text.toList := by
  obtain ⟨release, hrelease, rfl⟩ := Option.map_eq_some_iff.1 hparsed
  exact ⟨hrelease, rfl⟩

theorem buildSemver_parseReq_chars {req : Comparator}
    (hparsed : buildSemver.parseReq text = some req) :
    ∀ c ∈ text.toList, isWhitespace c = false := by
  have hchars : ∀ (operator version : List Char) (make : Release → Comparator),
      operator.all (fun c => !isWhitespace c) = true → (builtRelease version).map make = some req →
      ∀ c ∈ operator ++ version, isWhitespace c = false := by
    intro operator version make hoperator hmap c hmem
    obtain ⟨release, hrelease, -⟩ := Option.map_eq_some_iff.1 hmap
    rcases mem_append.1 hmem with hmem | hmem
    · simpa using all_eq_true.1 hoperator c hmem
    · exact isWhitespace_of_isVersionChar ((builtRelease_chars hrelease).2 c hmem)
  simp only [buildSemver] at hparsed
  split at hparsed
  next version htext => exact htext ▸ hchars ['>', '='] version _ (by decide) hparsed
  next version htext => exact htext ▸ hchars ['<'] version _ (by decide) hparsed
  next version htext => exact htext ▸ hchars ['='] version _ (by decide) hparsed
  next => exact nomatch hparsed

theorem buildSemver_laws : buildSemver.Laws BuiltRelease.precedence where
  version_unique htext hother := by
    have hsame := (buildSemver_parseVersion htext).2.symm.trans (buildSemver_parseVersion hother).2
    exact String.toList_inj.1 hsame
  version_ne_nil htext := (builtRelease_chars (buildSemver_parseVersion htext).1).1
  version_not_blank htext c hmem :=
    isWhitespace_of_isVersionChar ((builtRelease_chars (buildSemver_parseVersion htext).1).2 c hmem)
  version_not_operator htext c hmem :=
    not_operator_of_isVersionChar ((builtRelease_chars (buildSemver_parseVersion htext).1).2 c hmem)
  exact_accepts := by
    intro text version htext
    refine ⟨.exactly version.precedence, ?_, fun other => ?_⟩
    · simp [buildSemver, (buildSemver_parseVersion htext).1]
    · simp [buildSemver, releaseSemver]
  req_trim := by
    intro text req hparsed
    rw [trim_of_no_blank (buildSemver_parseReq_chars hparsed), String.ofList_toList]
    exact hparsed
  req_comparator := by
    intro text req hparsed _ _ before c after htext
    have hblank := buildSemver_parseReq_chars hparsed ' ' (by simp [htext])
    exact absurd hblank (by decide)

/-- Versions of at least 1.0.0 are reported. -/
theorem versionMatches_lower_bound :
    parseRequirement buildSemver ">=1.0.0" = .ok (.atLeast (toLex (1, toLex (0, 0)))) ∧
    AdvisoryChecker.versionMatches buildSemver "1.2.0" ">=1.0.0" = true :=
  ⟨rfl, (@versionMatches_iff_of_accepts _ _ _ buildSemver _ buildSemver_laws ">=1.0.0" "1.2.0"
    (.atLeast (toLex (1, toLex (0, 0)))) (toLex (toLex (1, toLex (2, 0)), "1.2.0".toList))
    rfl rfl (by decide)).2 (.inl ⟨by decide, by decide⟩)⟩

/-- An advisory on `1.2` is silent about version 1.2.0. -/
theorem versionMatches_shortened :
    parseRequirement buildSemver "1.2" = .ok (.exactly (toLex (1, toLex (2, 0)))) ∧
    buildSemver.parseVersion "1.2.0" = some (toLex (toLex (1, toLex (2, 0)), "1.2.0".toList)) ∧
    buildSemver.accepts (.exactly (toLex (1, toLex (2, 0))))
      (toLex (toLex (1, toLex (2, 0)), "1.2.0".toList)) = true ∧
    AdvisoryChecker.versionMatches buildSemver "1.2.0" "1.2" = false :=
  ⟨rfl, rfl, by decide, by decide⟩

end Ail.Package
