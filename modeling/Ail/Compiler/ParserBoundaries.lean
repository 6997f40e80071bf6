import Ail.Compiler.ParserFacts
import Ail.Lib.Utf8

/-!
# Where the parser stands in its text

Each cursor the parser comes to, however it ends, is a boundary between
two characters, except that white space of several bytes, such as U+00A0,
makes it panic. String literals may contain such characters.

`parseExpr_boundaries` says when that happens. What stands before the
first wide space outside string literals either is refused, whatever comes
after it, or the parser comes to that space: `Decided`.
-/

namespace Ail.Compiler

open Ail.Core Lib List
open String (utf8Len)

/-- How a text stands to a string literal. -/
inductive Quoted where
  | outside
  | inside
  | escaped
  deriving DecidableEq

/-- White space of several bytes. -/
def isWideSpace (c : Char) : Bool := isWhitespace c && 1 < c.utf8Size

namespace Quoted

/-- Past one character, if it is no wide space outside string literals. -/
def next : Quoted → Char → Option Quoted
  | outside, c => if c = '"' then some inside else if isWideSpace c then none else some outside
  | inside, c => some (if c = '"' then outside else if c = '\\' then escaped else inside)
  | escaped, _ => some inside

/-- Past a whole text. -/
def read : Quoted → List Char → Option Quoted
  | state, [] => some state
  | state, c :: cs => (state.next c).bind (·.read cs)

/-- A text has no wide space outside its string literals, or a first one. -/
theorem exists_wide_of_read_eq_none (state : Quoted) (text : List Char)
    (h : state.read text = none) :
    ∃ front wide rest, text = front ++ wide :: rest ∧ state.read front = some outside ∧
      isWideSpace wide = true := by
  induction text generalizing state with
  | nil => cases h
  | cons c cs ih =>
    cases hnext : state.next c with
    | none =>
      cases state with
      | outside =>
        rw [next] at hnext
        split_ifs at hnext with hquote hwide
        exact ⟨[], c, cs, rfl, rfl, hwide⟩
      | inside | escaped => cases hnext
    | some later =>
      rw [read, hnext] at h
      obtain ⟨front, wide, rest, rfl, hfront, hwide⟩ := ih later h
      exact ⟨c :: front, wide, rest, rfl, by rw [read, hnext]; exact hfront, hwide⟩

end Quoted

/-- The cursor is behind a front part of the input. -/
def Cursor.At (input : List Char) (cursor : Cursor) : Prop :=
  ∃ front, input = front ++ cursor.rest ∧ cursor.pos = utf8Len front

variable {input front rest : List Char} {pos : Nat} {c : Char} {cursor : Cursor}

/-- The position is a boundary, and the text cut there is what is unread. -/
theorem Cursor.At.sliceFrom (h : cursor.At input) :
    sliceFrom input cursor.pos = some cursor.rest ∧ cursor.pos ≤ utf8Len input := by
  obtain ⟨front, rfl, hpos⟩ := h
  rw [hpos, sliceFrom_append, String.utf8Len_append]
  exact ⟨rfl, Nat.le_add_right _ _⟩

theorem Cursor.At.advance (front : List Char) (h : Cursor.At input ⟨front ++ rest, pos⟩) :
    Cursor.At input ⟨rest, pos + utf8Len front⟩ := by
  obtain ⟨before, rfl, rfl⟩ := h
  exact ⟨before ++ front, by simp, by simp⟩

/-- A boundary outside string literals: from here the text reads as it
does from its start. -/
structure Cursor.Fine (input : List Char) (cursor : Cursor) : Prop where
  boundary : cursor.At input
  reads : Quoted.outside.read cursor.rest = Quoted.outside.read input

/-! ## The lexical steps -/

/-- A character of one byte that opens no string and is no wide space. -/
def IsPlain (c : Char) : Prop := c.utf8Size = 1 ∧ c ≠ '"'

theorem read_cons_of_isPlain (hc : IsPlain c) :
    Quoted.outside.read (c :: rest) = Quoted.outside.read rest := by
  have hwide : isWideSpace c = false := by simp [isWideSpace, hc.1]
  rw [Quoted.read, Quoted.next, if_neg hc.2, hwide]
  rfl

/-- Plain characters lead from boundary to boundary. -/
theorem Cursor.Fine.advance (hfront : ∀ c ∈ front, IsPlain c)
    (h : Cursor.Fine input ⟨front ++ rest, pos⟩) :
    Cursor.Fine input ⟨rest, pos + front.length⟩ := by
  induction front generalizing pos with
  | nil => exact h
  | cons c front ih =>
    obtain ⟨hplain, hfront⟩ := forall_mem_cons.1 hfront
    have hreads := h.reads
    rw [cons_append, read_cons_of_isPlain hplain] at hreads
    have hnext := ih hfront ⟨Cursor.At.advance [c] h.boundary, hreads⟩
    simpa [hplain.1, Nat.add_assoc, Nat.add_comm 1] using hnext

theorem utf8Size_of_ascii (hc : c.toNat < 128) : c.utf8Size = 1 :=
  Char.utf8Size_eq_one_iff.2 (UInt32.le_iff_toNat_le.2 (Nat.le_of_lt_succ hc))

/-- A character of a name has one byte. -/
theorem isPlain_of_isIdentChar (hc : isIdentChar c = true) : IsPlain c := by
  refine ⟨?_, fun heq => by rw [heq] at hc; exact absurd hc (by decide)⟩
  simp only [isIdentChar, Bool.or_eq_true, beq_iff_eq] at hc
  rcases hc with (hc | rfl) | rfl
  · exact utf8Size_of_ascii (ascii_of_isAlphanum hc)
  · decide
  · decide

theorem isPlain_of_isDigit (hc : c.isDigit = true) : IsPlain c :=
  isPlain_of_isIdentChar (by simp [isIdentChar, Char.isAlphanum, hc])

/-- A failure that is a panic only where the input has a wide space. -/
def Excused (input : List Char) (failure : Failure) : Prop :=
  failure = .panic → Quoted.outside.read input = none

theorem excused_error (message : String) : Excused input (.error message) := nofun

/-- Skipping ends on a boundary or panics at a wide space. -/
theorem skipWs_fine (cs : List Char) (pos : Nat) (h : Cursor.Fine input ⟨cs, pos⟩) :
    Ensures (Cursor.Fine input) (Excused input) (skipWs cs pos) := by
  induction cs generalizing pos with
  | nil => exact h
  | cons c cs ih =>
    unfold skipWs
    split
    · rename_i hspace
      have hquote : c ≠ '"' := fun heq => by rw [heq] at hspace; exact absurd hspace (by decide)
      split
      · rename_i hsize
        exact ih (pos + 1)
          (@Cursor.Fine.advance input [c] cs pos (by simp [IsPlain, hsize, hquote]) h)
      · rename_i hsize
        have hpos := c.utf8Size_pos
        have hwide : isWideSpace c = true := by simp [isWideSpace, hspace]; omega
        have hreads := h.reads
        rw [Quoted.read, Quoted.next, if_neg hquote, hwide] at hreads
        exact fun _ => hreads.symm
    · exact h

/-- A literal ends on a boundary, whatever stands in it. -/
theorem parseStringTail_fine (std : RustStd) (cs : List Char) (pos : Nat) (result : List Char)
    (hat : Cursor.At input ⟨cs, pos⟩) (hreads : Quoted.inside.read cs = Quoted.outside.read input) :
    Ensures (fun result => result.2.Fine input) (Excused input)
      (parseStringTail std cs pos result) := by
  fun_induction parseStringTail std cs pos result with
  | case1 | case7 | case8 => exact excused_error _
  | case2 => exact ⟨hat.advance ['"'], hreads⟩
  | case3 _ _ _ ih => exact ih (hat.advance ['\\', '"']) hreads
  | case4 _ _ _ ih => exact ih (hat.advance ['\\', '\\']) hreads
  | case5 _ _ _ ih => exact ih (hat.advance ['\\', 'n']) hreads
  | case6 _ _ _ ih => exact ih (hat.advance ['\\', 't']) hreads
  | case9 c cs pos result hquote _ _ _ _ hescape hend ih =>
    have hslash : c ≠ '\\' := fun heq => by
      cases cs with
      | nil => exact hend heq rfl
      | cons d ds => exact hescape d ds heq rfl
    rw [Quoted.read, Quoted.next, if_neg hquote, if_neg hslash] at hreads
    exact ih (by simpa using hat.advance [c]) hreads

theorem parseIdent_fine (h : cursor.Fine input) :
    Ensures (fun result => result.2.Fine input) (Excused input) (parseIdent cursor) := by
  unfold parseIdent
  dsimp only
  split
  · exact excused_error _
  · refine Cursor.Fine.advance (fun c hc => isPlain_of_isIdentChar (mem_takeWhile_imp hc)) ?_
    rwa [takeWhile_append_dropWhile]

theorem parseNumber_fine (std : RustStd) (h : cursor.Fine input) :
    Ensures (fun result => ∀ value next, result = some (value, next) → next.Fine input)
      (Excused input)
      (parseNumber std cursor) := by
  unfold parseNumber
  extract_lets sign unsigned digits after fraction text
  have hrest : sign ++ digits ++ after = cursor.rest := by
    rw [append_assoc, takeWhile_append_dropWhile]
    exact prefix_iff_eq_append.1 ((List.take_prefix _ _).trans (List.takeWhile_prefix _))
  have hfront : ∀ c ∈ sign ++ digits, IsPlain c := by
    intro c hc
    rcases mem_append.1 hc with hc | hc
    · have hminus := mem_takeWhile_imp (mem_of_mem_take hc)
      rw [beq_iff_eq.1 hminus]
      exact ⟨by decide, by decide⟩
    · exact isPlain_of_isDigit (mem_takeWhile_imp hc)
  split
  · exact fun _ _ h => nomatch h
  · split
    · rename_i hpoint
      split
      · exact excused_error _
      · rintro value next ⟨⟩
        refine Cursor.Fine.advance (fun c hc => ?_) ?_
        · rcases mem_append.1 hc with hc | hc
          · exact hfront c hc
          · rcases mem_cons.1 hc with rfl | hc
            · exact ⟨by decide, by decide⟩
            · exact isPlain_of_isDigit (mem_takeWhile_imp hc)
        · have hafter : '.' :: after.drop 1 = after := by
            obtain ⟨tail, htail⟩ := head?_eq_some_iff.1 hpoint.1
            rw [htail]
            rfl
          rw [append_assoc, cons_append, takeWhile_append_dropWhile, hafter, hrest]
          exact h
    · split
      · exact excused_error _
      · rintro value next ⟨⟩
        rw [Nat.add_assoc, ← length_append]
        refine Cursor.Fine.advance hfront ?_
        rw [hrest]
        exact h

theorem consume_fine {delimiter : Char} (hdelimiter : delimiter ∈ ['(', ')', ',']) {next : Cursor}
    (hnext : consume delimiter cursor = some next) (h : cursor.Fine input) : next.Fine input := by
  obtain ⟨_ | ⟨c, cs⟩, pos⟩ := cursor
  · cases hnext
  · unfold consume at hnext
    dsimp only at hnext
    split at hnext
    · rename_i heq
      cases hnext
      refine @Cursor.Fine.advance input [c] cs pos (fun d hd => ?_) h
      rw [mem_singleton.1 hd, heq]
      simp only [mem_cons, not_mem_nil, or_false] at hdelimiter
      rcases hdelimiter with rfl | rfl | rfl <;> exact ⟨by decide, by decide⟩
    · cases hnext

/-- Every lexer step keeps to the boundaries. -/
theorem lexes_fine (input : List Char) : Lexes (Cursor.Fine input) (Excused input) where
  error := excused_error
  skipWs cursor h := skipWs_fine cursor.rest cursor.pos h
  consume _ hdelimiter _ _ hnext h := consume_fine hdelimiter hnext h
  ident _ h := parseIdent_fine h
  string std text _ h := parseStringTail_fine std text _ [] (h.boundary.advance ['"']) h.reads
  number std _ h := parseNumber_fine std h

/-! ## The path of the parser -/

/-- What comes after a step that returns. -/
def follow {α : Type} (step : Except Failure α) (visits : α → List Cursor) : List Cursor :=
  match step with
  | .ok a => visits a
  | .error _ => []

mutual

/-- The cursors `parseExprAt` comes to, also if it fails in the end. -/
def exprVisits (std : RustStd) : Nat → Cursor → List Cursor
  | 0, _ => []
  | fuel + 1, cursor => follow (skipWs cursor.rest cursor.pos) fun cursor => cursor ::
    match cursor.rest with
    | [] => []
    | '"' :: text => follow (parseStringTail std text (cursor.pos + 1) []) fun (_, cursor) =>
      [cursor]
    | _ => follow (parseNumber std cursor) fun
      | some (_, cursor) => [cursor]
      | none => follow (parseIdent cursor) fun (_, cursor) => cursor ::
        follow (skipWs cursor.rest cursor.pos) fun cursor => cursor ::
          match consume '(' cursor with
          | none => []
          | some cursor => cursor :: follow (skipWs cursor.rest cursor.pos) fun cursor => cursor ::
            match consume ')' cursor with
            | some cursor => [cursor]
            | none => argsVisits std fuel cursor

/-- The cursors `parseArgs` comes to. -/
def argsVisits (std : RustStd) : Nat → Cursor → List Cursor
  | 0, _ => []
  | fuel + 1, cursor => exprVisits std fuel cursor ++
    follow (parseExprAt std fuel cursor) fun (_, cursor) =>
      follow (skipWs cursor.rest cursor.pos) fun cursor => cursor ::
        match consume ')' cursor with
        | some cursor => [cursor]
        | none =>
          match consume ',' cursor with
          | some cursor => cursor :: argsVisits std fuel cursor
          | none => []

end

/-- The cursors `parseExpr` comes to. -/
def visits (std : RustStd) (input : String) : List Cursor :=
  let start : Cursor := ⟨input.toList, 0⟩
  let fuel := input.toList.length + 1
  start :: exprVisits std fuel start ++ follow (parseExprAt std fuel start) fun (_, cursor) =>
    follow (skipWs cursor.rest cursor.pos) fun cursor => [cursor]

section Path

variable {I : Cursor → Prop} {E : Failure → Prop}

theorem forall_mem_follow {α : Type} {step : Except Failure α} {P : α → Prop}
    {visits : α → List Cursor}
    (hstep : Ensures P E step) (hvisits : ∀ a, P a → ∀ cursor ∈ visits a, I cursor) :
    ∀ cursor ∈ follow step visits, I cursor := by
  cases step with
  | ok a => exact hvisits a hstep
  | error failure => exact fun _ h => nomatch h

/-- What every lexical step keeps holds along the path of the parser. -/
theorem exprVisits_of_lexes (lexes : Lexes I E) (std : RustStd) (fuel : Nat) :
    (∀ cursor, I cursor → cursor.rest.length < fuel → ∀ next ∈ exprVisits std fuel cursor, I next) ∧
    (∀ cursor, I cursor → cursor.rest.length + 1 < fuel →
      ∀ next ∈ argsVisits std fuel cursor, I next) := by
  have hskip := fun cursor hI => (skipWs_length cursor.rest cursor.pos).and (lexes.skipWs cursor hI)
  induction fuel with
  | zero => exact ⟨fun _ _ h => absurd h (Nat.not_lt_zero _),
      fun _ _ h => absurd h (Nat.not_lt_zero _)⟩
  | succ fuel ih =>
    obtain ⟨ihExpr, ihArgs⟩ := ih
    refine ⟨fun cursor hI hfuel => ?_, fun cursor hI hfuel => ?_⟩
    · rw [exprVisits]
      refine forall_mem_follow (hskip cursor hI) fun start ⟨hstart, hIstart⟩ =>
        forall_mem_cons.2 ⟨hIstart, ?_⟩
      split
      · exact fun _ h => nomatch h
      · rename_i text htext
        obtain ⟨rest, pos⟩ := start
        obtain rfl : rest = '"' :: text := htext
        exact forall_mem_follow (lexes.string std text pos hIstart) fun _ hI => by simpa using hI
      · refine forall_mem_follow (lexes.number std start hIstart) fun result hresult => ?_
        split
        · simpa using hresult _ _ rfl
        · refine forall_mem_follow ((parseIdent_reads start).and (lexes.ident start hIstart))
            fun ⟨_, afterIdent⟩ ⟨⟨_, hident⟩, hIident⟩ => forall_mem_cons.2 ⟨hIident, ?_⟩
          refine forall_mem_follow (hskip afterIdent hIident) fun afterWs ⟨hws, hIws⟩ =>
            forall_mem_cons.2 ⟨hIws, ?_⟩
          dsimp only at hident hws
          split
          · exact fun _ h => nomatch h
          · rename_i opened hopen
            have hopened := length_consume hopen
            have hIopened := lexes.consume _ (by simp) _ _ hopen hIws
            refine forall_mem_cons.2 ⟨hIopened, forall_mem_follow (hskip opened hIopened)
              fun inside ⟨hinside, hIinside⟩ => forall_mem_cons.2 ⟨hIinside, ?_⟩⟩
            split
            · rename_i closed hclose
              simpa using lexes.consume _ (by simp) _ _ hclose hIinside
            · exact ihArgs inside hIinside (by omega)
    · rw [argsVisits]
      refine forall_mem_append.2 ⟨ihExpr cursor hI (by omega), ?_⟩
      refine forall_mem_follow ((parseExprAt_reads lexes std fuel).1 cursor hI (by omega))
        fun ⟨arg, afterArg⟩ ⟨⟨_, hread⟩, hIarg⟩ => ?_
      refine forall_mem_follow (hskip afterArg hIarg) fun afterWs ⟨hws, hIws⟩ =>
        forall_mem_cons.2 ⟨hIws, ?_⟩
      dsimp only at hread hws
      split
      · rename_i closed hclose
        simpa using lexes.consume _ (by simp) _ _ hclose hIws
      · split
        · rename_i afterComma hcomma
          have hlength := length_consume hcomma
          have hIcomma := lexes.consume _ (by simp) _ _ hcomma hIws
          exact forall_mem_cons.2 ⟨hIcomma, ihArgs afterComma hIcomma (by omega)⟩
        · exact fun _ h => nomatch h

/-- What the lexer steps keep holds wherever the parser stops. -/
theorem visits_of_lexes (lexes : Lexes I E) (std : RustStd) (input : String)
    (hI : I ⟨input.toList, 0⟩) : ∀ cursor ∈ visits std input, I cursor := by
  have hfuel := Nat.lt_succ_self input.toList.length
  refine forall_mem_append.2 ⟨forall_mem_cons.2 ⟨hI, ?_⟩, ?_⟩
  · exact (exprVisits_of_lexes lexes std _).1 _ hI hfuel
  · exact forall_mem_follow ((parseExprAt_reads lexes std _).1 _ hI hfuel) fun _ ⟨_, hIcursor⟩ =>
      forall_mem_follow (lexes.skipWs _ hIcursor) fun _ hI => by simpa using hI

end Path

/-! ## What stands before white space -/

/-- A text that begins with white space. -/
structure Spaced where
  head : Char
  tail : List Char
  white : isWhitespace head = true

def Spaced.space (tail : List Char) : Spaced := ⟨' ', tail, rfl⟩

def Spaced.wide (tail : List Char) (hc : isWideSpace c = true) : Spaced :=
  ⟨c, tail, (Bool.and_eq_true_iff.1 hc).1⟩

def Spaced.chars (text : Spaced) : List Char := text.head :: text.tail

def Cursor.append (cursor : Cursor) (text : Spaced) : Cursor :=
  ⟨cursor.rest ++ text.chars, cursor.pos⟩

/-- What a lexical step returns, with more text behind it. -/
abbrev extend {α : Type} (text : Spaced) : α × Cursor → α × Cursor := Prod.map id (·.append text)

variable {text : Spaced}

theorem isIdentChar_of_isWhitespace (hc : isWhitespace c = true) : isIdentChar c = false := by
  rw [Bool.eq_false_iff]
  intro hident
  simp only [isIdentChar, Bool.or_eq_true, beq_iff_eq] at hident
  rcases hident with (hident | rfl) | rfl
  · delta Char.isAlphanum Char.isAlpha Char.isUpper Char.isLower Char.isDigit at hident
    simp only [Bool.or_eq_true, Bool.and_eq_true, decide_eq_true_eq,
      UInt32.le_iff_toNat_le] at hident
    simp only [isWhitespace, Bool.or_eq_true, Bool.and_eq_true, decide_eq_true_eq, beq_iff_eq] at hc
    have hcode : c.toNat = c.val.toNat := rfl
    have hA : 'A'.val.toNat = 65 ∧ 'Z'.val.toNat = 90 := ⟨rfl, rfl⟩
    have ha : 'a'.val.toNat = 97 ∧ 'z'.val.toNat = 122 := ⟨rfl, rfl⟩
    have h0 : '0'.val.toNat = 48 ∧ '9'.val.toNat = 57 := ⟨rfl, rfl⟩
    omega
  · exact absurd hc (by decide)
  · exact absurd hc (by decide)

theorem isDigit_of_isWhitespace (hc : isWhitespace c = true) : c.isDigit = false := by
  have hident := isIdentChar_of_isWhitespace hc
  simp only [isIdentChar, Char.isAlphanum, Bool.or_eq_false_iff] at hident
  exact hident.1.1.2

section Span

variable {p : Char → Bool} (hp : ∀ c, isWhitespace c = true → p c = false)
include hp

theorem takeWhile_append_spaced (cs : List Char) :
    (cs ++ text.chars).takeWhile p = cs.takeWhile p := by
  induction cs with
  | nil => simp [Spaced.chars, hp _ text.white]
  | cons d cs ih => simp only [cons_append, takeWhile_cons, ih]

theorem dropWhile_append_spaced (cs : List Char) :
    (cs ++ text.chars).dropWhile p = cs.dropWhile p ++ text.chars := by
  induction cs with
  | nil => simp [Spaced.chars, hp _ text.white]
  | cons d cs ih =>
    simp only [cons_append, dropWhile_cons, ih]
    split <;> rfl

end Span

/-- A name ends before the space that follows. -/
theorem parseIdent_append (cursor : Cursor) :
    parseIdent (cursor.append text) = (parseIdent cursor).map (extend text) := by
  have hspace : ∀ c, isWhitespace c = true → isIdentChar c = false :=
    fun _ => isIdentChar_of_isWhitespace
  unfold parseIdent Cursor.append
  dsimp only
  rw [takeWhile_append_spaced hspace, dropWhile_append_spaced hspace]
  split <;> rfl

/-- So does a number. -/
theorem parseNumber_append (std : RustStd) (cursor : Cursor) :
    parseNumber std (cursor.append text) = (parseNumber std cursor).map
      (Option.map (extend text)) := by
  have hdigit : ∀ c, isWhitespace c = true → c.isDigit = false := fun _ => isDigit_of_isWhitespace
  have hminus : ∀ c, isWhitespace c = true → (c == '-') = false := fun c hc => by
    rw [beq_eq_false_iff_ne]
    rintro rfl
    exact absurd hc (by decide)
  have hsign : ((cursor.rest.takeWhile (· == '-')).take 1).length ≤ cursor.rest.length :=
    ((List.take_prefix _ _).trans (List.takeWhile_prefix _)).length_le
  unfold parseNumber Cursor.append
  simp only [takeWhile_append_spaced hminus, drop_append_of_le_length hsign,
    takeWhile_append_spaced hdigit, dropWhile_append_spaced hdigit]
  generalize (cursor.rest.takeWhile (· == '-')).take 1 = sign
  split
  · rfl
  · cases (cursor.rest.drop sign.length).dropWhile Char.isDigit with
    | nil =>
      have hpoint : text.head ≠ '.' := fun heq => absurd (heq ▸ text.white) (by decide)
      simp only [nil_append, Spaced.chars, head?_cons, head?_nil, Option.some.injEq,
        hpoint, false_and,
        if_false, reduceCtorEq]
      split <;> rfl
    | cons d ds =>
      simp only [cons_append, head?_cons, drop_succ_cons, drop_zero,
        takeWhile_append_spaced hdigit, dropWhile_append_spaced hdigit]
      split
      · split <;> rfl
      · split <;> rfl

theorem consume_append (expected : Char) (hrest : cursor.rest ≠ []) :
    consume expected (cursor.append text) = (consume expected cursor).map (·.append text) := by
  obtain ⟨_ | ⟨c, cs⟩, pos⟩ := cursor
  · exact absurd rfl hrest
  · unfold consume Cursor.append
    dsimp only [cons_append]
    split <;> rfl

/-- A closed literal does not look at what follows. -/
theorem parseStringTail_append (std : RustStd) (cs : List Char) (pos : Nat) (result : List Char)
    (hreads : Quoted.inside.read cs = some .outside) :
    parseStringTail std (cs ++ text.chars) pos result =
      (parseStringTail std cs pos result).map (extend text) := by
  fun_induction parseStringTail std cs pos result with
  | case1 | case8 => cases hreads
  | case2 => rfl
  | case3 _ _ _ ih | case4 _ _ _ ih | case5 _ _ _ ih | case6 _ _ _ ih => exact ih hreads
  | case7 c cs pos result hquote hslash hn ht =>
    rw [cons_append, cons_append, parseStringTail.eq_7 _ _ _ _ _ hquote hslash hn ht]
    rfl
  | case9 c cs pos result hquote _ _ _ _ hescape hend ih =>
    have hslash : c ≠ '\\' := fun heq => by
      cases cs with
      | nil => exact hend heq rfl
      | cons d ds => exact hescape d ds heq rfl
    rw [Quoted.read, Quoted.next, if_neg hquote, if_neg hslash] at hreads
    rw [cons_append, parseStringTail.eq_9 _ _ _ _ _ hquote (by simp [hslash]) (by simp [hslash])
      (by simp [hslash]) (by simp [hslash]) (by simp [hslash]) (by simp [hslash])]
    exact ih hreads

/-- White space is skipped up to a character of this text, or into what
follows it. -/
theorem skipWs_append (hclean : Quoted.outside.read front = some .outside)
    (cs : List Char) (pos : Nat) (h : Cursor.Fine front ⟨cs, pos⟩) :
    (∃ next : Cursor, next.Fine front ∧ next.rest ≠ [] ∧ next.rest.length ≤ cs.length ∧
      ∀ text, skipWs (cs ++ Spaced.chars text) pos = .ok (next.append text)) ∨
    ∃ pos', ∀ text, skipWs (cs ++ Spaced.chars text) pos = skipWs text.chars pos' := by
  induction cs generalizing pos with
  | nil => exact .inr ⟨pos, fun _ => rfl⟩
  | cons c cs ih =>
    cases hspace : isWhitespace c with
    | false => exact .inl ⟨⟨c :: cs, pos⟩, h, by simp, le_rfl, fun text => by
        rw [cons_append, skipWs, hspace]; rfl⟩
    | true =>
      have hquote : c ≠ '"' := fun heq => by rw [heq] at hspace; exact absurd hspace (by decide)
      have hsize : c.utf8Size = 1 := by
        by_contra hsize
        have hpos := c.utf8Size_pos
        have hwide : isWideSpace c = true := by simp [isWideSpace, hspace]; omega
        have hreads := h.reads
        rw [hclean, Quoted.read, Quoted.next, if_neg hquote, hwide] at hreads
        cases hreads
      have hnext := @Cursor.Fine.advance front [c] cs pos (by simp [IsPlain, hsize, hquote]) h
      simp only [cons_append, skipWs, hspace, if_true, hsize]
      rcases ih (pos + 1) hnext with ⟨next, hnext, hrest, hle, heq⟩ | hmore
      · exact .inl ⟨next, hnext, hrest, Nat.le_succ_of_le hle, heq⟩
      · exact .inr hmore

/-! ## Refused before the space, or not -/

/-- A run on texts that begin with white space returns before them, fails
before them, or skips into them. -/
inductive Decided (front : List Char) {α : Type} (run : Spaced → Except Failure (α × Cursor)) : Prop
  | returns (a : α) (next : Cursor) (hnext : next.Fine front)
      (h : ∀ text, run text = .ok (a, next.append text))
  | refused (failure : Failure) (h : ∀ text, run text = .error failure)
  | reached (h : ∀ text, (∀ pos, skipWs text.chars pos = .error .panic) → run text = .error .panic)

namespace Decided

variable {α β : Type} {run : Spaced → Except Failure (α × Cursor)}

theorem congr {run' : Spaced → Except Failure (α × Cursor)} (heq : ∀ text, run text = run' text)
    (h : Decided front run') : Decided front run := by
  rwa [funext heq]

/-- A lexical step reads this text alone as it does before white space. -/
theorem of_append {E : Failure → Prop} {step : Except Failure (α × Cursor)}
    (hstep : Ensures (fun result => result.2.Fine front) E step)
    (heq : ∀ text, run text = step.map (extend text)) : Decided front run := by
  cases step with
  | ok result => exact .returns result.1 result.2 hstep heq
  | error failure => exact .refused failure heq

/-- Steps that are decided one after the other are decided. -/
theorem bind {k : Spaced → α × Cursor → Except Failure (β × Cursor)} (hrun : Decided front run)
    (hk : ∀ a (next : Cursor), next.Fine front → (∀ text, run text = .ok (a, next.append text)) →
      Decided front fun text => k text (a, next.append text)) :
    Decided front fun text => run text >>= k text := by
  cases hrun with
  | returns a next hnext h =>
    simp only [h]
    exact hk a next hnext h
  | refused failure h =>
    simp only [h]
    exact .refused failure fun _ => rfl
  | reached h =>
    refine .reached fun text hpanic => ?_
    rw [h text hpanic]
    rfl

/-- Skipping white space, then a run from a character that is none. -/
theorem skip {k : Spaced → Cursor → Except Failure (α × Cursor)}
    (hclean : Quoted.outside.read front = some .outside) (h : cursor.Fine front)
    (hk : ∀ next : Cursor, next.Fine front → next.rest ≠ [] →
      next.rest.length ≤ cursor.rest.length → Decided front fun text => k text (next.append text)) :
    Decided front fun text =>
      skipWs (cursor.append text).rest (cursor.append text).pos >>= k text := by
  rcases skipWs_append hclean cursor.rest cursor.pos h with ⟨next, hnext, hrest, hle,
    heq⟩ | ⟨pos, heq⟩
  · simp only [Cursor.append, heq]
    exact hk next hnext hrest hle
  · refine .reached fun text hpanic => ?_
    simp only [Cursor.append, heq, hpanic]
    rfl

theorem exprFromCall (ident : String) (args : List CoreExpr) {next : Cursor}
    (hnext : next.Fine front) :
    Decided front fun text => Ail.Compiler.exprFromCall ident args >>=
      fun e => .ok (e, next.append text) := by
  cases Ail.Compiler.exprFromCall ident args with
  | ok e => exact .returns e next hnext fun _ => rfl
  | error failure => exact .refused failure fun _ => rfl

end Decided

/-- The parser is decided by what stands before white space. -/
theorem parseExprAt_decided (std : RustStd) (hclean : Quoted.outside.read front = some .outside)
    (fuel : Nat) :
    (∀ cursor : Cursor, cursor.Fine front → cursor.rest.length < fuel → Decided front fun text =>
      parseExprAt std (fuel + text.chars.length) (cursor.append text)) ∧
    (∀ cursor : Cursor, cursor.Fine front → cursor.rest.length + 1 < fuel →
      Decided front fun text =>
      parseArgs std (fuel + text.chars.length) (cursor.append text)) := by
  have lexes := lexes_fine front
  induction fuel with
  | zero => exact ⟨fun _ _ h => absurd h (Nat.not_lt_zero _),
      fun _ _ h => absurd h (Nat.not_lt_zero _)⟩
  | succ fuel ih =>
    obtain ⟨ihExpr, ihArgs⟩ := ih
    simp only [Nat.add_right_comm fuel 1, parseExprAt, parseArgs]
    refine ⟨fun cursor h hfuel => ?_, fun cursor h hfuel => ?_⟩
    · refine Decided.skip hclean h fun start hstart hrest hlength => ?_
      obtain ⟨_ | ⟨c, cs⟩, pos⟩ := start
      · exact absurd rfl hrest
      by_cases hc : c = '"'
      · subst hc
        have hreads : Quoted.inside.read cs = some .outside := hstart.reads.trans hclean
        simp only [Cursor.append, cons_append, parseStringTail_append std cs (pos + 1) [] hreads]
        refine Decided.bind (.of_append (lexes.string std cs pos hstart) fun text => rfl)
          fun content next hnext _ => .returns (.literal (.text content)) next hnext fun _ => rfl
      · apply Decided.congr
        · intro text
          split
          · rename_i heq
            cases heq
          · rename_i heq
            cases heq
            exact absurd rfl hc
          · rfl
        simp only [parseNumber_append]
        cases hnumber : parseNumber std ⟨c :: cs, pos⟩ with
        | error failure => exact .refused failure fun _ => rfl
        | ok result =>
          cases result with
          | some result =>
            exact .returns (.literal result.1) result.2
              ((lexes.number std _ hstart).of_eq_ok hnumber _ _ rfl) fun _ => rfl
          | none =>
            refine Decided.bind (.of_append (lexes.ident _ hstart) fun text => parseIdent_append _)
              fun ident next hnext heq => ?_
            have hread := ((parseIdent_reads _).of_eq_ok (heq (.space []))).2
            simp only [Cursor.append, length_append, Nat.add_lt_add_iff_right] at hread
            refine Decided.skip hclean hnext fun next hnext hrest hskip => ?_
            simp only [consume_append _ hrest]
            dsimp only at hlength
            cases hopen : consume '(' next with
            | none => exact .returns (identExpr ident) next hnext fun _ => rfl
            | some opened =>
              have hopened := length_consume hopen
              refine Decided.skip hclean (consume_fine (by simp) hopen hnext)
                fun next hnext hrest hinside => ?_
              simp only [consume_append _ hrest]
              cases hclose : consume ')' next with
              | some closed => exact .exprFromCall ident [] (consume_fine (by simp) hclose hnext)
              | none =>
                exact Decided.bind (ihArgs next hnext (by omega))
                  fun args next hnext _ => .exprFromCall ident args hnext
    · refine Decided.bind (ihExpr cursor h (by omega)) fun arg next hnext heq => ?_
      have hread := (((parseExprAt_reads lexes_true std _).1 _ trivial
        (by simp only [Cursor.append, length_append]; omega)).of_eq_ok (heq (.space []))).1.2
      simp only [Cursor.append, length_append, Nat.add_lt_add_iff_right] at hread
      refine Decided.skip hclean hnext fun next hnext hrest hskip => ?_
      simp only [consume_append _ hrest]
      cases hclose : consume ')' next with
      | some closed =>
        exact .returns [arg] closed (consume_fine (by simp) hclose hnext) fun _ => rfl
      | none =>
        cases hcomma : consume ',' next with
        | none =>
          exact .refused (.error ("expected ',' or ')' at byte " ++ toString next.pos)) fun _ => rfl
        | some afterComma =>
          have hcommaLength := length_consume hcomma
          exact Decided.bind (ihArgs afterComma (consume_fine (by simp) hcomma hnext) (by omega))
            fun args next hnext _ => .returns (arg :: args) next hnext fun _ => rfl

/-- What stands before white space is refused, or the parser skips into
what follows. -/
theorem parseExpr_decided (std : RustStd) (hclean : Quoted.outside.read front = some .outside) :
    (∃ message, ∀ text : Spaced,
      parseExpr std (.ofList (front ++ text.chars)) = .error (.error message)) ∨
    ∀ text : Spaced, (∀ pos, skipWs text.chars pos = .error .panic) →
      parseExpr std (.ofList (front ++ text.chars)) = .error .panic := by
  have hfuel : ∀ text : Spaced,
      (front ++ text.chars).length + 1 = front.length + 1 + text.chars.length :=
    fun text => by rw [length_append, Nat.add_right_comm]
  have hrun := (parseExprAt_decided std hclean (front.length + 1)).1 ⟨front, 0⟩
    ⟨⟨[], rfl, rfl⟩, rfl⟩
    (Nat.lt_succ_self _)
  simp only [Cursor.append] at hrun
  simp only [parseExpr, String.toList_ofList, hfuel]
  cases hrun with
  | returns e next hnext h =>
    simp only [h]
    rcases skipWs_append hclean next.rest next.pos hnext with ⟨last, _, hrest, _, heq⟩ | ⟨pos, heq⟩
    · refine .inl ⟨"unexpected trailing input at byte " ++ toString last.pos, fun text => ?_⟩
      have hmore : (last.append text).rest ≠ [] := by simp [Cursor.append, hrest]
      change (skipWs (next.rest ++ text.chars) next.pos >>= _) = _
      rw [heq]
      exact if_pos hmore
    · refine .inr fun text hpanic => ?_
      change (skipWs (next.rest ++ text.chars) next.pos >>= _) = _
      rw [heq, hpanic]
      rfl
  | refused failure h =>
    simp only [h]
    cases failure with
    | error message => exact .inl ⟨message, fun _ => rfl⟩
    | panic => exact .inr fun _ _ => rfl
    | outOfFuel =>
      have hgenuine := parseExpr_ensures std (.ofList (front ++ (Spaced.space []).chars))
      simp only [parseExpr, String.toList_ofList, hfuel, h] at hgenuine
      exact absurd rfl hgenuine
  | reached h =>
    refine .inr fun text hpanic => ?_
    rw [h text hpanic]
    rfl

/-- What stands before a space is refused, whatever comes after it. -/
def Refused (std : RustStd) (front : List Char) : Prop :=
  ∃ message, ∀ tail, parseExpr std (.ofList (front ++ ' ' :: tail)) = .error (.error message)

/-- A wide space where the parser skips is a panic. -/
theorem skipWs_wide (rest : List Char) (hc : isWideSpace c = true) (pos : Nat) :
    skipWs (c :: rest) pos = .error .panic := by
  obtain ⟨hspace, hsize⟩ := Bool.and_eq_true_iff.1 hc
  rw [skipWs, if_pos hspace, if_neg (of_decide_eq_true hsize).ne']

theorem returns_iff (std : RustStd) (input : String) :
    (∃ e, parseExpr std input = .ok e) ∨
      (∃ message, parseExpr std input = .error (.error message)) ↔
      parseExpr std input ≠ .error .panic := by
  have hgenuine := parseExpr_ensures std input
  rcases hparse : parseExpr std input with (message | _ | _) | e <;> rw [hparse] at hgenuine
  · simp
  · simp
  · exact absurd rfl hgenuine
  · simp

/-- The parser returns or fails with a message exactly if whatever stands
before a wide space outside string literals is refused already. Its
cursor is at a boundary all along, however it ends. -/
theorem parseExpr_boundaries (std : RustStd) (input : String) :
    ((∃ e, parseExpr std input = .ok e) ∨
        (∃ message, parseExpr std input = .error (.error message)) ↔
      ∀ front wide rest, input.toList = front ++ wide :: rest →
        Quoted.outside.read front = some .outside → isWideSpace wide = true → Refused std front) ∧
    ∀ cursor ∈ visits std input, sliceFrom input.toList cursor.pos = some cursor.rest ∧
      cursor.pos ≤ utf8Len input.toList := by
  have hstart : Cursor.Fine input.toList ⟨input.toList, 0⟩ := ⟨⟨[], rfl, rfl⟩, rfl⟩
  refine ⟨?_, fun cursor hcursor =>
    (visits_of_lexes (lexes_fine input.toList) std input hstart cursor hcursor).boundary.sliceFrom⟩
  have hinput : ∀ {chars}, input.toList = chars → input = .ofList chars :=
    fun heq => by rw [← heq, String.ofList_toList]
  rw [returns_iff]
  constructor
  · intro hpanic front wide rest heq hread hwide
    rcases parseExpr_decided std hread with ⟨message, h⟩ | h
    · exact ⟨message, fun tail => h (.space tail)⟩
    · refine absurd ?_ hpanic
      rw [hinput heq]
      exact h (.wide rest hwide) (skipWs_wide rest hwide)
  · intro hrefused hpanic
    have hnarrow := (parseExpr_of_lexes (lexes_fine input.toList) std input hstart)
    rw [hpanic] at hnarrow
    obtain ⟨front, wide, rest, heq, hread, hwide⟩ :=
      Quoted.exists_wide_of_read_eq_none _ _ (hnarrow.2 rfl)
    obtain ⟨message, hmessage⟩ := hrefused front wide rest heq hread hwide
    rcases parseExpr_decided std hread with ⟨_, h⟩ | h
    · have hfails := h (.wide rest hwide)
      rw [Spaced.chars, Spaced.wide, ← hinput heq, hpanic] at hfails
      cases hfails
    · have hreached := h (.space (wide :: rest)) fun pos => skipWs_wide rest hwide (pos + 1)
      rw [Spaced.chars, Spaced.space, hmessage] at hreached
      cases hreached

/-- A text that is refused before its no-break space. -/
theorem parseExpr_boundaries_refused : Refused .trivial [')'] ∧
    ((∃ e, parseExpr .trivial ")\u00a0" = .ok e) ∨
      ∃ message, parseExpr .trivial ")\u00a0" = .error (.error message)) := by
  have hrefused : Refused .trivial [')'] := by
    refine ⟨"expected identifier at byte " ++ toString 0, fun tail => ?_⟩
    rw [parseExpr, String.toList_ofList]
    rfl
  refine ⟨hrefused, (parseExpr_boundaries .trivial ")\u00a0").1.2
    fun front wide rest heq _ hwide => ?_⟩
  match front with
  | [] =>
    obtain rfl : ')' = wide := (cons.inj heq).1
    exact absurd hwide (by decide)
  | [c] =>
    obtain rfl : ')' = c := (cons.inj heq).1
    exact hrefused
  | _ :: _ :: _ => simpa using congrArg length heq

/-- A no-break space in front of a name. -/
theorem parseExpr_wide_panics : parseExpr .trivial "\u00a0x" = .error .panic := rfl

end Ail.Compiler
