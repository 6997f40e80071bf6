import Ail.Core.Text
import Ail.Lib.Canonical
import Ail.Lib.Outcome
import Ail.Lib.Utf8
import Ail.Verify.Report

/-!
# Scanning bodies for calls

Stage 20 and the effect obligations look in the text of a body for calls
like `acquire(db)` or `run_effect(db)`. All scans walk over the bytes of
the text and cut it at the position they are at; where that position is
inside a character the cut panics.

A scan of stage 20 visits every byte, so it returns exactly for ASCII
texts. `extract_body_effects` jumps over the calls it finds, one keyword
at a time, so it returns exactly if all other characters stand between a
keyword's opening parenthesis and the closing one (`scanKeyword_ok_iff`).

The hash maps of stage 20 are lists in the order of insertion. The order
in which they are iterated is a parameter.
-/

namespace Ail.Verify

open Ail.Core Lib List
open String (utf8Len)

/-- The order in which a hash map is iterated. -/
structure HashOrder where
  iter : {α : Type} → List (List Char × α) → List (List Char × α)
  perm : ∀ {α : Type} (entries : List (List Char × α)), (iter entries).Perm entries

/-- The order of insertion. -/
def HashOrder.insertion : HashOrder := ⟨id, fun _ => .refl _⟩

/-- `&body[pos..]`. -/
def sliceAt (body : List Char) (pos : Nat) : Except Panic (List Char) :=
  match sliceFrom body pos with
  | some suffix => .ok suffix
  | none => .error (.notCharBoundary pos)

/-- What stands between the parenthesis that the keyword ends in and the
next closing one, if the text starts with such a call. -/
def callArgument (keyword : String) (suffix : List Char) : Option (List Char) :=
  (stripFront keyword suffix).bind fun inner => (splitOnce ')' inner).map (·.1)

/-! ## Stage 20: resources -/

section Ordering

variable (tables : CharTables)

/-- The identifier a call is made with, if it is one. -/
def callIdent (keyword : String) (suffix : List Char) : Option (List Char) :=
  ((callArgument keyword suffix).map trim).filter fun ident =>
    ident ≠ [] ∧ ident.all tables.isIdentChar

/-- `map.entry(ident).or_insert(pos)`. -/
def insertFirst (map : List (List Char × Nat)) (ident : List Char) (pos : Nat) :
    List (List Char × Nat) :=
  if (map.lookup ident).isSome then map else map ++ [(ident, pos)]

/-- `*map.entry(ident).or_insert(0) += 1`. -/
def countUp (map : List (List Char × Nat)) (ident : List Char) : List (List Char × Nat) :=
  if (map.lookup ident).isSome then
    map.map fun entry => if entry.1 = ident then (entry.1, entry.2 + 1) else entry
  else map ++ [(ident, 1)]

/-- A loop over all byte positions, each with the text that starts there. -/
def scanBytes {σ : Type} (body : List Char) (step : σ → Nat → List Char → σ) (init : σ) :
    Except Panic σ :=
  (List.range (utf8Len body)).foldlM (fun state pos => (sliceAt body pos).map (step state pos)) init

/-- The first position of each identifier that is acquired, and of each
that is released. -/
structure ResourceUses where
  acquires : List (List Char × Nat) := []
  releases : List (List Char × Nat) := []

def ResourceUses.note (uses : ResourceUses) (pos : Nat) (suffix : List Char) : ResourceUses :=
  let noteCall (keyword : String) (map : List (List Char × Nat)) :=
    (callIdent tables keyword suffix).elim map (insertFirst map · pos)
  ⟨noteCall "acquire(" uses.acquires, noteCall "release(" uses.releases⟩

/-- `find_ordering_violation`: a resource that is released before it is
acquired, or not acquired at all. -/
def findOrderingViolation (order : HashOrder) (body : List Char) :
    Except Panic (Option (List Char)) :=
  (scanBytes body (ResourceUses.note tables) {}).map fun uses =>
    (order.iter uses.releases).findSome? fun (ident, releasePos) =>
      match uses.acquires.lookup ident with
      | some acquirePos => if releasePos < acquirePos then some ident else none
      | none => some ident

/-! ## Stage 20: effects -/

/-- How often each effect is bound, run and emitted. -/
structure EffectUses where
  binds : List (List Char × Nat) := []
  runs : List (List Char × Nat) := []
  emits : List (List Char × Nat) := []

def EffectUses.note (uses : EffectUses) (_pos : Nat) (suffix : List Char) : EffectUses :=
  let noteCall (keyword : String) (map : List (List Char × Nat)) :=
    (callIdent tables keyword suffix).elim map (countUp map)
  ⟨noteCall "bind_effect(" uses.binds, noteCall "run_effect(" uses.runs,
    noteCall "emit_effect(" uses.emits⟩

/-- `find_keyword_pos`, over the positions that are left. -/
def findKeywordPosIn (body : List Char) (keyword : String) (ident : List Char) :
    List Nat → Except Panic (Option Nat)
  | [] => .ok none
  | pos :: positions => do
    let suffix ← sliceAt body pos
    if (callArgument keyword suffix).map trim = some ident then return some pos
    else findKeywordPosIn body keyword ident positions

def findKeywordPos (body : List Char) (keyword : String) (ident : List Char) :
    Except Panic (Option Nat) :=
  findKeywordPosIn body keyword ident (List.range (utf8Len body))

/-- The violations, strings with a code in front in the source. -/
inductive EffectViolation where
  | duplicate (ident : List Char)
  | noBind (ident : List Char)
  | runFirst (ident : List Char)

def EffectViolation.evidence : EffectViolation → String
  | .duplicate ident =>
    "E_ANF_DUPLICATE_EFFECT: emit_effect('" ++ String.ofList ident ++ "') appears more than once"
  | .noBind ident =>
    "E_ANF_EFFECT_ORDER: run_effect('" ++ String.ofList ident ++ "') without bind_effect"
  | .runFirst ident =>
    "E_ANF_EFFECT_ORDER: run_effect('" ++ String.ofList ident ++ "') before bind_effect('" ++
      String.ofList ident ++ "')"

/-- The loop over the effects that are run. -/
def findRunViolation (body : List Char) : List (List Char) → Except Panic (Option EffectViolation)
  | [] => .ok none
  | ident :: idents => do
    let bindPos ← findKeywordPos body "bind_effect(" ident
    let runPos ← findKeywordPos body "run_effect(" ident
    match bindPos, runPos with
    | none, some _ => return some (.noBind ident)
    | some bind, some run =>
      if run < bind then return some (.runFirst ident) else findRunViolation body idents
    | _, none => findRunViolation body idents

/-- `find_effect_ordering_violation`. -/
def findEffectOrderingViolation (order : HashOrder) (body : List Char) :
    Except Panic (Option EffectViolation) := do
  let uses ← scanBytes body (EffectUses.note tables) {}
  match (order.iter uses.emits).find? (1 < ·.2) with
  | some (ident, _) => return some (.duplicate ident)
  | none => findRunViolation body ((order.iter uses.runs).map (·.1))

end Ordering

/-! ### Every byte is visited -/

theorem sliceAt_ok_iff {body : List Char} {pos : Nat} :
    (∃ suffix, sliceAt body pos = .ok suffix) ↔ (sliceFrom body pos).isSome := by
  unfold sliceAt
  cases sliceFrom body pos <;> simp

theorem scanBytes_ok_iff {σ : Type} {body : List Char} {step : σ → Nat → List Char → σ}
    {init : σ} : (∃ state, scanBytes body step init = .ok state) ↔ IsAscii body := by
  have hstep : ∀ pos ∈ List.range (utf8Len body), ∀ state : σ,
      (∃ next, (sliceAt body pos).map (step state pos) = .ok next) ↔
        (sliceFrom body pos).isSome := by
    intro pos _ state
    rw [exists_map_eq_ok_iff, sliceAt_ok_iff]
  rw [scanBytes, exists_foldlM_eq_ok_iff hstep init, ← isSome_sliceFrom_iff]
  simp

section Returns

variable {tables : CharTables} {order : HashOrder} {body : List Char}

theorem findOrderingViolation_ok_iff :
    (∃ violation, findOrderingViolation tables order body = .ok violation) ↔ IsAscii body := by
  rw [findOrderingViolation, exists_map_eq_ok_iff, scanBytes_ok_iff]

theorem findKeywordPosIn_ok {keyword : String} {ident : List Char} {positions : List Nat}
    (hcut : ∀ pos ∈ positions, (sliceFrom body pos).isSome) :
    ∃ found, findKeywordPosIn body keyword ident positions = .ok found := by
  induction positions with
  | nil => exact ⟨none, rfl⟩
  | cons pos positions ih =>
    obtain ⟨hpos, hrest⟩ := forall_mem_cons.1 hcut
    obtain ⟨suffix, hsuffix⟩ := sliceAt_ok_iff.2 hpos
    simp only [findKeywordPosIn, hsuffix, bind, Except.bind]
    split
    · exact ⟨some pos, rfl⟩
    · exact ih hrest

theorem findKeywordPos_ok (hascii : IsAscii body) (keyword : String) (ident : List Char) :
    ∃ found, findKeywordPos body keyword ident = .ok found :=
  findKeywordPosIn_ok fun pos hpos => isSome_sliceFrom_iff.2 hascii pos (mem_range.1 hpos)

theorem findRunViolation_ok (hascii : IsAscii body) (idents : List (List Char)) :
    ∃ violation, findRunViolation body idents = .ok violation := by
  induction idents with
  | nil => exact ⟨none, rfl⟩
  | cons ident idents ih =>
    obtain ⟨bindPos, hbind⟩ := findKeywordPos_ok hascii "bind_effect(" ident
    obtain ⟨runPos, hrun⟩ := findKeywordPos_ok hascii "run_effect(" ident
    simp only [findRunViolation, hbind, hrun, bind, Except.bind]
    split
    · exact ⟨_, rfl⟩
    · split
      · exact ⟨_, rfl⟩
      · exact ih
    · exact ih

theorem findEffectOrderingViolation_ok_iff :
    (∃ violation, findEffectOrderingViolation tables order body = .ok violation) ↔
      IsAscii body := by
  have hscan := @scanBytes_ok_iff _ body (EffectUses.note tables) {}
  simp only [findEffectOrderingViolation, bind_eq_ok]
  constructor
  · rintro ⟨_, uses, huses, -⟩
    exact hscan.1 ⟨uses, huses⟩
  · intro hascii
    obtain ⟨uses, huses⟩ := hscan.2 hascii
    cases hemit : (order.iter uses.emits).find? (1 < ·.2) with
    | some entry => exact ⟨_, uses, huses, by simp only [hemit]; rfl⟩
    | none =>
      obtain ⟨violation, hviolation⟩ :=
        findRunViolation_ok hascii ((order.iter uses.runs).map (·.1))
      exact ⟨violation, uses, huses, by simp [hemit, hviolation]⟩

end Returns

/-! ## The effects a body uses -/

def effectKeywords : List String := ["emit_effect(", "run_effect(", "bind_effect("]

/-- The identifiers of effects may have a provider after a colon. -/
def isEffectIdent (tables : CharTables) (ident : List Char) : Bool :=
  ident ≠ [] && ident.all fun c => tables.isIdentChar c || c == ':'

/-- The loop of `extract_body_effects` for one keyword. A turn moves on
by at least one byte. -/
def scanKeyword (tables : CharTables) (keyword : String) (body : List Char) :
    Nat → Nat → List (List Char) → Except Panic (List (List Char))
  | 0, _, found => .ok found
  | fuel + 1, pos, found =>
    if pos < utf8Len body then do
      let suffix ← sliceAt body pos
      match stripFront keyword suffix with
      | none => scanKeyword tables keyword body fuel (pos + 1) found
      | some inner =>
        let innerStart := pos + utf8Len keyword.toList
        match splitOnce ')' inner with
        | none => scanKeyword tables keyword body fuel innerStart found
        | some (argument, _) =>
          let found :=
            if isEffectIdent tables (trim argument) then found ++ [trim argument] else found
          scanKeyword tables keyword body fuel (innerStart + utf8Len argument + 1) found
    else .ok found

def extractBodyEffects (tables : CharTables) (body : List Char) : Except Panic (List String) :=
  (effectKeywords.foldlM
    (fun found keyword => scanKeyword tables keyword body (utf8Len body) 0 found) []).map
    fun found => orderedSet (found.map String.ofList)

/-! ### Calls are jumped over -/

/-- A keyword the scan can rely on. -/
structure IsKeyword (keyword : List Char) : Prop where
  ne_nil : keyword ≠ []
  isAscii : IsAscii keyword
  no_close : ')' ∉ keyword

theorem isKeyword_of_mem : ∀ keyword ∈ effectKeywords, IsKeyword keyword.toList := by
  have hall : ∀ keyword ∈ effectKeywords,
      keyword.toList ≠ [] ∧ IsAscii keyword.toList ∧ ')' ∉ keyword.toList := by decide
  exact fun keyword hmem => ⟨(hall keyword hmem).1, (hall keyword hmem).2.1,
    (hall keyword hmem).2.2⟩

/-- Every character of more than one byte stands in a call of the
keyword: between its opening parenthesis and the next closing one. -/
def Enclosed (keyword body : List Char) : Prop :=
  ∀ before c after, body = before ++ c :: after → 1 < c.utf8Size →
    (∃ inner, keyword ++ inner <:+ before ∧ ')' ∉ inner) ∧ ')' ∈ after

section Enclosed

variable {keyword : List Char}

theorem enclosed_nil : Enclosed keyword [] := by
  intro before c after heq
  simp at heq

theorem suffix_of_suffix_append_cons {x : Char} {part front back : List Char}
    (hsuffix : part <:+ front ++ x :: back) (hnot : x ∉ part) : part <:+ back := by
  obtain hpart | hpart := suffix_or_suffix_of_suffix hsuffix (suffix_append front (x :: back))
  · obtain rfl | hback := suffix_cons_iff.1 hpart
    · exact absurd (.head _) hnot
    · exact hback
  · exact absurd (hpart.subset (.head _)) hnot

/-- A character of more than one byte is not in an ASCII front part. -/
theorem split_after_ascii {front rest before after : List Char} {c : Char} (hascii : IsAscii front)
    (heq : front ++ rest = before ++ c :: after) (hsize : 1 < c.utf8Size) :
    ∃ between, before = front ++ between ∧ rest = between ++ c :: after := by
  obtain ⟨between, hbefore, hrest⟩ | ⟨between, hfront, hrest⟩ := append_eq_append_iff.1 heq
  · exact ⟨between, hbefore, hrest⟩
  · cases between with
    | nil => exact ⟨[], by simpa using hfront.symm, hrest.symm⟩
    | cons d between =>
      cases hrest
      have hone := hascii c (by simp [hfront])
      omega

theorem enclosed_cons_iff {c : Char} {rest : List Char} (hsize : c.utf8Size = 1)
    (hnot : ¬ keyword <+: c :: rest) : Enclosed keyword (c :: rest) ↔ Enclosed keyword rest := by
  constructor
  · rintro henclosed before d after rfl hd
    obtain ⟨⟨inner, hinner, hclose⟩, hafter⟩ := henclosed (c :: before) d after rfl hd
    obtain heq | hinner := suffix_cons_iff.1 hinner
    · refine absurd ⟨inner ++ d :: after, ?_⟩ hnot
      rw [← append_assoc, heq, cons_append]
    · exact ⟨⟨inner, hinner, hclose⟩, hafter⟩
  · intro henclosed before d after heq hd
    obtain ⟨between, rfl, hrest⟩ :=
      @split_after_ascii [c] rest before after d (by simpa [IsAscii] using hsize) heq hd
    obtain ⟨⟨inner, hinner, hclose⟩, hafter⟩ := henclosed between d after hrest hd
    exact ⟨⟨inner, suffix_append_of_suffix hinner, hclose⟩, hafter⟩

theorem not_enclosed_cons {c : Char} {rest : List Char} (hkeyword : IsKeyword keyword)
    (hsize : 1 < c.utf8Size) : ¬ Enclosed keyword (c :: rest) := by
  intro henclosed
  obtain ⟨⟨inner, hinner, -⟩, -⟩ := henclosed [] c rest rfl hsize
  have hnil := suffix_nil.1 hinner
  exact hkeyword.ne_nil (append_eq_nil_iff.1 hnil).1

theorem enclosed_open_iff {inner : List Char} (hkeyword : IsKeyword keyword) (hopen : ')' ∉ inner) :
    Enclosed keyword (keyword ++ inner) ↔ Enclosed keyword inner := by
  constructor
  · rintro henclosed before c after rfl hsize
    have hafter := (henclosed (keyword ++ before) c after (by simp) hsize).2
    exact absurd (by simp [hafter]) hopen
  · intro henclosed before c after heq hsize
    obtain ⟨between, rfl, rfl⟩ := split_after_ascii hkeyword.isAscii heq hsize
    have hafter := (henclosed between c after rfl hsize).2
    exact absurd (by simp [hafter]) hopen

theorem enclosed_call_iff {argument tail : List Char} (hkeyword : IsKeyword keyword)
    (hargument : ')' ∉ argument) :
    Enclosed keyword (keyword ++ (argument ++ ')' :: tail)) ↔ Enclosed keyword tail := by
  constructor
  · rintro henclosed before c after rfl hsize
    obtain ⟨⟨inner, hinner, hclose⟩, hafter⟩ :=
      henclosed (keyword ++ argument ++ ')' :: before) c after (by simp) hsize
    refine ⟨⟨inner, suffix_of_suffix_append_cons hinner ?_, hclose⟩, hafter⟩
    simp [hkeyword.no_close, hclose]
  · intro henclosed before c after heq hsize
    obtain ⟨between, rfl, hrest⟩ := split_after_ascii hkeyword.isAscii heq hsize
    obtain ⟨inside, rfl, htail⟩ | ⟨inside, rfl, hafter⟩ := append_eq_append_iff.1 hrest
    · -- after the call
      obtain ⟨inside, rfl, rfl⟩ :=
        @split_after_ascii [')'] tail inside after c (by decide) htail hsize
      obtain ⟨⟨inner, hinner, hclose⟩, hafter⟩ := henclosed inside c after rfl hsize
      exact ⟨⟨inner, hinner.trans ⟨keyword ++ argument ++ [')'], by simp⟩, hclose⟩, hafter⟩
    · -- within its argument
      refine ⟨⟨between, suffix_rfl, fun hmem => hargument (by simp [hmem])⟩, ?_⟩
      cases inside with
      | nil =>
        cases hafter
        exact absurd hsize (by decide)
      | cons d inside =>
        cases hafter
        simp

end Enclosed

variable {tables : CharTables}

/-- The scan for one keyword returns exactly if every character of more
than one byte stands in a call of it. -/
theorem scanKeyword_ok_iff {keyword : String} (hkeyword : IsKeyword keyword.toList) {fuel : Nat}
    {done rest : List Char} {found : List (List Char)} (hfuel : utf8Len rest ≤ fuel) :
    (∃ result, scanKeyword tables keyword (done ++ rest) fuel (utf8Len done) found = .ok result) ↔
      Enclosed keyword.toList rest := by
  induction fuel generalizing done rest found with
  | zero =>
    obtain rfl : rest = [] := by simpa using hfuel
    simp [scanKeyword, enclosed_nil]
  | succ fuel ih =>
    cases rest with
    | nil => simp [scanKeyword, enclosed_nil]
    | cons c rest =>
      have hpos := c.utf8Size_pos
      rw [String.utf8Len_cons] at hfuel
      have hslice : sliceAt (done ++ c :: rest) (utf8Len done) = .ok (c :: rest) := by
        simp [sliceAt]
      rw [scanKeyword, if_pos (by simp; omega), hslice]
      simp only [bind, Except.bind]
      cases hfront : stripFront keyword (c :: rest) with
      | none =>
        have hnot := stripFront_eq_none_iff.1 hfront
        by_cases hsize : c.utf8Size = 1
        · have hnext := @ih (done ++ [c]) rest found (by omega)
          rw [enclosed_cons_iff hsize hnot, ← hnext]
          simp [hsize]
        · -- the next position is inside the character
          refine iff_of_false ?_ (not_enclosed_cons hkeyword (by omega))
          obtain ⟨fuel, rfl⟩ := Nat.exists_eq_succ_of_ne_zero (show fuel ≠ 0 by omega)
          have hpanic : sliceAt (done ++ c :: rest) (utf8Len done + 1) =
              .error (.notCharBoundary (utf8Len done + 1)) := by
            rw [sliceAt, sliceFrom_append_add, sliceFrom_inside Nat.one_pos (by omega)]
          rw [scanKeyword, if_pos (by simp; omega), hpanic]
          simp [bind, Except.bind]
      | some inner =>
        have heq := stripFront_eq_some_iff.1 hfront
        have hlen : utf8Len keyword.toList + utf8Len inner = utf8Len rest + c.utf8Size := by
          rw [← String.utf8Len_append, ← heq, String.utf8Len_cons]
        have hne : 0 < utf8Len keyword.toList :=
          Nat.pos_of_ne_zero fun hzero => hkeyword.ne_nil (String.utf8Len_eq_zero.1 hzero)
        simp only
        cases hclose : splitOnce ')' inner with
        | none =>
          have hnext := @ih (done ++ keyword.toList) inner found (by omega)
          rw [heq, enclosed_open_iff hkeyword (splitOnce_eq_none_iff.1 hclose), ← hnext]
          simp
        | some parts =>
          obtain ⟨argument, tail⟩ := parts
          have hinner := (splitOnce_parts hclose).1
          rw [hinner, String.utf8Len_append, String.utf8Len_cons] at hlen
          have hnext := @ih (done ++ keyword.toList ++ argument ++ [')']) tail
            (if isEffectIdent tables (trim argument) then found ++ [trim argument] else found)
            (by omega)
          rw [heq, hinner, enclosed_call_iff hkeyword (splitOnce_parts hclose).2, ← hnext]
          simp [Nat.add_assoc, show (')' : Char).utf8Size = 1 by decide]

theorem extractBodyEffects_ok_iff {body : List Char} :
    (∃ effects, extractBodyEffects tables body = .ok effects) ↔
      ∀ keyword ∈ effectKeywords, Enclosed keyword.toList body := by
  have hstep : ∀ keyword ∈ effectKeywords, ∀ found : List (List Char),
      (∃ next, scanKeyword tables keyword body (utf8Len body) 0 found = .ok next) ↔
        Enclosed keyword.toList body :=
    fun keyword hmem found =>
      @scanKeyword_ok_iff tables keyword (isKeyword_of_mem keyword hmem) _ [] body found le_rfl
  rw [extractBodyEffects, exists_map_eq_ok_iff, exists_foldlM_eq_ok_iff hstep]

end Ail.Verify
