import Ail.Package.Lockfile

/-!
# What a lock file check reports

The checks that a lock file is reproduced (`lockfile.rs`) compare and
print texts. A resolved source is printed without its user information
and its path, both cut at characters that the user information may hold
as well. Artifacts are compared as one text, their roles and hashes joined
by characters that these may hold too.
-/

namespace Ail.Package

open Ail.Core Lib List

/-! ## Sources -/

/-- A character that ends the authority of a source. -/
def endsAuthority (c : Char) : Bool := c == '/' || c == '?' || c == '#'

/-- A source with this authority, as it is printed. -/
def redactedAs (scheme authority : List Char) : String :=
  if authority = [] then String.ofList scheme ++ "://<redacted>"
  else String.ofList scheme ++ "://" ++ String.ofList authority ++ "/<redacted>"

def redactedResolvedSource (raw : String) : String :=
  if raw = "" then "<redacted>"
  else match splitOnceText "://".toList raw.toList with
    | none => "<redacted>"
    | some (scheme, rest) =>
      -- `rsplit_once` at the last `@`, if there is one
      redactedAs scheme ((rest.takeWhile (!endsAuthority ·)).rtakeWhile (· ≠ '@'))

/-- No character of a user information ends the authority. -/
def PlainUser (user : List Char) : Prop := ∀ c ∈ user, ¬ endsAuthority c

/-- A scheme or a host: none of the signs around it occurs in it. -/
def CleanPart (text : String) : Prop := ∀ c ∈ text.toList, c ∉ ['/', '?', '#', '@', ':']

/-- What follows the host: nothing, or a path, a query or a fragment. -/
def CleanTail (tail : String) : Prop := ∀ c ∈ tail.toList.head?, c ∈ ['/', '?', '#']

/-- The source `scheme://user@host` with a tail. -/
def sourceOf (scheme user host tail : String) : String :=
  scheme ++ "://" ++ user ++ "@" ++ host ++ tail

theorem redactedAs_injective (scheme : List Char) : Function.Injective (redactedAs scheme) := by
  intro a b heq
  have hlist := congrArg String.toList heq
  unfold redactedAs at hlist
  split at hlist <;> split at hlist
  next ha hb => rw [ha, hb]
  next => simpa using congrArg List.length hlist
  next => simpa using congrArg List.length hlist
  next => simpa using hlist

/-- The scheme is cut off at the first `://`. -/
theorem redactedResolvedSource_sourceOf {scheme : String} (hscheme : CleanPart scheme)
    (user host tail : String) :
    redactedResolvedSource (sourceOf scheme user host tail) =
      redactedAs scheme.toList (((user.toList ++ '@' :: (host.toList ++ tail.toList)).takeWhile
        (!endsAuthority ·)).rtakeWhile (· ≠ '@')) := by
  have hcolon : ':' ∉ scheme.toList := fun hmem => hscheme ':' hmem (by simp)
  have hsplit : splitOnceText "://".toList (sourceOf scheme user host tail).toList =
      some (scheme.toList, user.toList ++ '@' :: (host.toList ++ tail.toList)) := by
    have hfirst := @splitOnceText_append ':' "//".toList
      (user.toList ++ '@' :: (host.toList ++ tail.toList)) _ hcolon
    simpa [sourceOf] using hfirst
  rw [redactedResolvedSource, if_neg (by simp [sourceOf]), hsplit]

/-- Behind a plain user information the host is all that is kept. -/
theorem authority_of_plain {user host tail : List Char} (hplain : PlainUser user)
    (hhost : ∀ c ∈ host, ¬ endsAuthority c ∧ c ≠ '@') (htail : ∀ c ∈ tail.head?, endsAuthority c) :
    ((user ++ '@' :: (host ++ tail)).takeWhile (!endsAuthority ·)).rtakeWhile (· ≠ '@') = host := by
  have htail : tail.takeWhile (!endsAuthority ·) = [] := by
    cases tail with
    | nil => rfl
    | cons c tail => rw [takeWhile_cons_of_neg (by simp [htail c rfl])]
  have hhostEnds : (host ++ tail).takeWhile (!endsAuthority ·) = host := by
    rw [takeWhile_append_of_pos fun c hc => by simp [(hhost c hc).1], htail, append_nil]
  rw [takeWhile_append_of_pos fun c hc => by simp [hplain c hc],
    takeWhile_cons_of_pos (by decide), hhostEnds, rtakeWhile, reverse_append, reverse_cons,
    append_assoc, takeWhile_append_of_pos fun c hc => by simp [(hhost c (mem_reverse.1 hc)).2]]
  simp

/-- Behind any other user information nothing of the host is seen. -/
theorem authority_of_not_plain {user : List Char} (hplain : ¬ PlainUser user) (rest : List Char) :
    (user ++ rest).takeWhile (!endsAuthority ·) = user.takeWhile (!endsAuthority ·) := by
  rw [takeWhile_append, if_neg fun hlength => hplain fun c hc => ?_]
  have hall := takeWhile_eq_self_iff.1
    (List.IsPrefix.eq_of_length ( takeWhile_prefix _) hlength) c hc
  simpa using hall

/-- A user information is hidden, that is, the source is printed like one
with any plain user information, whatever the scheme, the host and the
tails, exactly if it is plain itself. -/
theorem redactedResolvedSource_hides_iff (user : String) :
    (∀ scheme host user' tail tail', CleanPart scheme → CleanPart host →
      CleanTail tail → CleanTail tail' → PlainUser user'.toList →
      redactedResolvedSource (sourceOf scheme user host tail) =
        redactedResolvedSource (sourceOf scheme user' host tail')) ↔ PlainUser user.toList := by
  have hkept : ∀ {user host tail : String}, PlainUser user.toList → CleanPart host →
      CleanTail tail → ((user.toList ++ '@' :: (host.toList ++ tail.toList)).takeWhile
        (!endsAuthority ·)).rtakeWhile (· ≠ '@') = host.toList := by
    intro user host tail hplain hhost htail
    refine authority_of_plain hplain (fun c hc => ?_) fun c hc => ?_
    · have hclean := hhost c hc
      simp_all [endsAuthority]
    · simpa [endsAuthority, or_assoc] using htail c hc
  constructor
  · intro hsame
    by_contra hplain
    -- the same is kept for the empty host and for the host `h`
    have hnone : CleanTail "" ∧ CleanPart "" ∧ PlainUser "".toList := by
      simp [CleanTail, CleanPart, PlainUser]
    have hshown : ∀ host, CleanPart host →
        (user.toList.takeWhile (!endsAuthority ·)).rtakeWhile (· ≠ '@') = host.toList := by
      intro host hhost
      have hprinted := hsame "" host "" "" "" hnone.2.1 hhost hnone.1 hnone.1 hnone.2.2
      rw [redactedResolvedSource_sourceOf hnone.2.1, redactedResolvedSource_sourceOf hnone.2.1,
        authority_of_not_plain hplain, hkept hnone.2.2 hhost hnone.1] at hprinted
      exact redactedAs_injective _ hprinted
    have hdiffer := (hshown "" hnone.2.1).symm.trans (hshown "h" (by simp [CleanPart]))
    simp at hdiffer
  · intro hplain scheme host user' tail tail' hscheme hhost htail htail' hplain'
    rw [redactedResolvedSource_sourceOf hscheme, redactedResolvedSource_sourceOf hscheme,
      hkept hplain hhost htail, hkept hplain' hhost htail']

theorem redacted_plain_user :
    redactedResolvedSource (sourceOf "https" "user:pw" "host" "/path") =
      redactedResolvedSource (sourceOf "https" "other" "host" "?token=1") :=
  (redactedResolvedSource_hides_iff _).2 (by simp [PlainUser, endsAuthority]) _ _ _ _ _
    (by simp [CleanPart]) (by simp [CleanPart]) (by simp [CleanTail]) (by simp [CleanTail])
    (by simp [PlainUser, endsAuthority])

/-- A password with a slash: what stands before the slash is shown. -/
theorem redacted_shows_password :
    redactedResolvedSource (sourceOf "https" "secret/x" "host" "/path") =
        "https://secret/<redacted>" ∧
      redactedResolvedSource (sourceOf "https" "user" "host" "/path") =
        "https://host/<redacted>" := by
  decide

/-! ## Artifacts -/

structure LockfileArtifactEvidence where
  name : String
  version : String
  artifactHashes : List ArtifactHashEntry

/-- The issue `LockfileValidationIssue::ArtifactHashMismatch`. -/
structure ArtifactHashMismatch where
  name : String
  version : String
  expected : String
  actual : String

/-- The key of `validation_issue_sort_key`; the code in front of it is the
same for all of these issues. -/
def ArtifactHashMismatch.sortKey (issue : ArtifactHashMismatch) : List String :=
  [issue.name, issue.version, issue.expected, issue.actual]

/-- The role and the hash of an artifact, trimmed. -/
def ArtifactHashEntry.trimmed (artifact : ArtifactHashEntry) : List Char × List Char :=
  (trim artifact.role.toList, trim artifact.hash.toList)

def artifactText (pair : List Char × List Char) : String :=
  String.ofList (pair.1 ++ '=' :: pair.2)

/-- The `BTreeSet` of the texts. -/
def artifactTexts (artifacts : List ArtifactHashEntry) : List String :=
  orderedSet ((artifacts.map (·.trimmed)).map artifactText)

def canonicalArtifactHashes (artifacts : List ArtifactHashEntry) : String :=
  ",".intercalate (artifactTexts artifacts)

/-- The artifacts that were given last for the coordinate of an entry. -/
def observedArtifacts (actual : List LockfileArtifactEvidence) (entry : LockfileEntry) :
    List ArtifactHashEntry :=
  ((actual.reverse.find? fun package => (package.name, package.version) = entry.coordinate).map
    (·.artifactHashes)).getD []

def Lockfile.validateArtifactReproducibility (lock : Lockfile)
    (actual : List LockfileArtifactEvidence) : List ArtifactHashMismatch :=
  (lock.entries.filterMap fun entry =>
    let expected := canonicalArtifactHashes entry.artifactHashes
    let observed := canonicalArtifactHashes (observedArtifacts actual entry)
    if expected ≠ observed then some ⟨entry.name, entry.version, expected, observed⟩
    else none).insertionSort fun a b => (compare a.sortKey b.sortKey).isLE

/-- The issue is about this entry. -/
def ArtifactHashMismatch.IsFor (issue : ArtifactHashMismatch) (entry : LockfileEntry) : Prop :=
  (issue.name, issue.version) = entry.coordinate ∧
    issue.expected = canonicalArtifactHashes entry.artifactHashes

variable {artifacts artifacts' : List ArtifactHashEntry}

/-- The trimmed pairs are the same as sets. -/
def SameArtifacts (artifacts artifacts' : List ArtifactHashEntry) : Prop :=
  ∀ pair, pair ∈ artifacts.map (·.trimmed) ↔ pair ∈ artifacts'.map (·.trimmed)

/-- Neither role nor hash holds a sign that joins them. -/
def Unambiguous (artifacts : List ArtifactHashEntry) : Prop :=
  ∀ pair ∈ artifacts.map (·.trimmed), '=' ∉ pair.1 ∧ ',' ∉ pair.1 ∧ ',' ∉ pair.2

theorem mem_artifactTexts {text : String} : text ∈ artifactTexts artifacts ↔
    ∃ pair ∈ artifacts.map (·.trimmed), artifactText pair = text :=
  mem_orderedSet.trans mem_map

/-- The texts are read back from the joined one, which is empty only if
there is no text. -/
theorem splitOn_canonicalArtifactHashes (hclear : Unambiguous artifacts) :
    (if canonicalArtifactHashes artifacts = "" then []
      else (canonicalArtifactHashes artifacts).toList.splitOn ',') =
        (artifactTexts artifacts).map String.toList := by
  have hcomma : ∀ text ∈ (artifactTexts artifacts).map String.toList, ',' ∉ text ∧ text ≠ [] := by
    intro text htext
    obtain ⟨_, hmem, rfl⟩ := mem_map.1 htext
    obtain ⟨pair, hpair, rfl⟩ := mem_artifactTexts.1 hmem
    simp [artifactText, hclear pair hpair]
  simp only [← String.toList_inj, canonicalArtifactHashes, String.toList_intercalate]
  generalize (artifactTexts artifacts).map String.toList = texts at hcomma
  cases texts with
  | nil => rfl
  | cons text texts =>
    have htext := (hcomma text mem_cons_self).2
    rw [if_neg (by cases texts <;> simp [htext])]
    exact splitOn_intercalate ',' (fun text htext => (hcomma text htext).1) (by simp)

/-- Where no sign that joins them occurs, the joined text tells the pairs. -/
theorem mem_of_canonicalArtifactHashes_eq (hclear : Unambiguous artifacts)
    (hclear' : Unambiguous artifacts')
    (heq : canonicalArtifactHashes artifacts = canonicalArtifactHashes artifacts') :
    ∀ pair ∈ artifacts.map (·.trimmed), pair ∈ artifacts'.map (·.trimmed) := by
  intro pair hpair
  have htexts : artifactTexts artifacts = artifactTexts artifacts' := by
    refine map_injective_iff.2 (fun _ _ => String.toList_inj.1) ?_
    rw [← splitOn_canonicalArtifactHashes hclear, heq, splitOn_canonicalArtifactHashes hclear']
  obtain ⟨pair', hpair', htext⟩ :=
    mem_artifactTexts.1 (htexts ▸ mem_artifactTexts.2 ⟨pair, hpair, rfl⟩)
  have hsplit := splitOnce_append pair.2 (hclear pair hpair).1
  rw [← String.ofList_injective htext, splitOnce_append pair'.2 (hclear' pair' hpair').1] at hsplit
  have hsame : pair' = pair := Option.some.inj hsplit
  exact hsame ▸ hpair'

/-- Only the set of the trimmed pairs enters the joined text. -/
theorem SameArtifacts.canonicalArtifactHashes_eq (hsame : SameArtifacts artifacts artifacts') :
    canonicalArtifactHashes artifacts = canonicalArtifactHashes artifacts' := by
  have htexts : artifactTexts artifacts = artifactTexts artifacts' := by
    refine orderedSet_eq_iff.2 fun text => ?_
    rw [mem_map, mem_map]
    exact exists_congr fun pair => and_congr_left' (hsame pair)
  rw [canonicalArtifactHashes, htexts, canonicalArtifactHashes]

/-- The report names an entry exactly if its text is not the observed one. -/
theorem exists_isFor_iff {lock : Lockfile} {entry : LockfileEntry} (hentry : entry ∈ lock.entries)
    (actual : List LockfileArtifactEvidence) :
    (∃ issue ∈ lock.validateArtifactReproducibility actual, issue.IsFor entry) ↔
      canonicalArtifactHashes entry.artifactHashes ≠
        canonicalArtifactHashes (observedArtifacts actual entry) := by
  simp only [Lockfile.validateArtifactReproducibility, mem_insertionSort, mem_filterMap,
    Option.ite_none_right_eq_some, Option.some.injEq]
  constructor
  · rintro ⟨_, ⟨other, -, hdiffer, rfl⟩, hcoordinate, hexpected⟩
    have hobserved : observedArtifacts actual other = observedArtifacts actual entry := by
      unfold observedArtifacts
      rw [← hcoordinate]
      rfl
    rwa [← hexpected, ← hobserved]
  · intro hdiffer
    exact ⟨_, ⟨entry, hentry, hdiffer, rfl⟩, rfl, rfl⟩

/-- The check of an entry is exact if no role and no hash, locked or
observed, holds a sign that joins them. -/
theorem validateArtifactReproducibility_exact {lock : Lockfile} {entry : LockfileEntry}
    {actual : List LockfileArtifactEvidence} (hentry : entry ∈ lock.entries)
    (hlocked : Unambiguous entry.artifactHashes)
    (hobserved : Unambiguous (observedArtifacts actual entry)) :
    (¬ ∃ issue ∈ lock.validateArtifactReproducibility actual, issue.IsFor entry) ↔
      SameArtifacts entry.artifactHashes (observedArtifacts actual entry) := by
  rw [exists_isFor_iff hentry, not_not]
  refine ⟨fun heq pair => ?_, SameArtifacts.canonicalArtifactHashes_eq⟩
  exact ⟨mem_of_canonicalArtifactHashes_eq hlocked hobserved heq pair,
    mem_of_canonicalArtifactHashes_eq hobserved hlocked heq.symm pair⟩

/-- Two artifacts, given in the other order and with blanks. -/
theorem validateArtifactReproducibility_exact_blanks :
    let entry : LockfileEntry := ⟨"lib", "1.0.0", none, "", .unverified, none,
      [⟨"wasm", "b1"⟩, ⟨"source", "a2"⟩], []⟩
    ¬ ∃ issue ∈ Lockfile.validateArtifactReproducibility ⟨[entry]⟩
      [⟨"lib", "1.0.0", [⟨" source", "a2 "⟩, ⟨"wasm", "b1"⟩]⟩], issue.IsFor entry :=
  (validateArtifactReproducibility_exact mem_cons_self (by unfold Unambiguous; decide)
    (by unfold Unambiguous; decide)).2 fun _ => (Perm.swap _ _ _).mem_iff

/-- A hash with a comma passes for two artifacts. -/
theorem validateArtifactReproducibility_comma :
    Lockfile.validateArtifactReproducibility
        ⟨[⟨"lib", "1.0.0", none, "", .unverified, none, [⟨"a", "b,c=d"⟩], []⟩]⟩
        [⟨"lib", "1.0.0", [⟨"a", "b"⟩, ⟨"c", "d"⟩]⟩] = [] ∧
      ¬ SameArtifacts [⟨"a", "b,c=d"⟩] [⟨"a", "b"⟩, ⟨"c", "d"⟩] := by
  refine ⟨by decide +kernel, fun hsame => ?_⟩
  exact absurd ((hsame (['c'], ['d'])).2 (by decide)) (by decide)

end Ail.Package
