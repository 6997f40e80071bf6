import Ail.Change.Parser

/-!
# What the parser makes of a line

Three things about `op` lines. What a map of arguments answers after an
insertion. Which values a text of `key=value` pairs gives: they are parts
of the text (`mem_kvPairs`), a plain word comes back as it stands, and so
does a last value exactly when it is `Whole`; every other last value gives
values that are shorter (`length_lt_of_not_whole`). And what one line does
to the ops read so far (`parseLine_parsedOps`).
-/

namespace Ail.Change

open Ail.Core List

/-! ## Maps of arguments -/

/-- The inserted value is found, the others are kept. -/
theorem lookup_insertArg (key value key' : String) (args : OpArgs) :
    (insertArg key value args).lookup key' =
      if key' = key then some value else args.lookup key' := by
  have hcons (rest : OpArgs) : ((key, value) :: rest).lookup key' =
      if key' = key then some value else rest.lookup key' := by
    by_cases h : key' = key
    · simp [h]
    · rw [lookup_cons, beq_eq_false_iff_ne.2 h, if_neg h]
  induction args with
  | nil => exact hcons []
  | cons entry rest ih =>
    unfold insertArg
    split
    · exact hcons _
    · split
      next heq =>
        rw [hcons]
        by_cases h : key' = key
        · simp [h]
        · rw [if_neg h, if_neg h, lookup_cons, beq_eq_false_iff_ne.2 (heq ▸ h)]
      next hne =>
        rw [lookup_cons, lookup_cons, ih]
        by_cases h : key' = key
        · subst h
          rw [beq_eq_false_iff_ne.2 hne]
        · simp [if_neg h]

variable {entry : String × String} {cs key word line text : List Char} {lineNum fuel : Nat}
  {state state' : AclState} {value : String} {args : OpArgs} {depth : Depth} {c : Char}
  {pair : List Char × List Char}

theorem mem_insertArg {key : String} (hmem : entry ∈ insertArg key value args) :
    entry = (key, value) ∨ entry ∈ args := by
  induction args with
  | nil => exact .inl (mem_singleton.1 hmem)
  | cons head rest ih =>
    unfold insertArg at hmem
    split at hmem
    · exact mem_cons.1 hmem
    · split at hmem
      · exact (mem_cons.1 hmem).imp_right (mem_cons_of_mem _)
      · rcases mem_cons.1 hmem with rfl | hmem
        · exact .inr (.head _)
        · exact (ih hmem).imp_right (mem_cons_of_mem _)

theorem lookup_orInsertArg_of_ne {key key' : String} (hne : key' ≠ key) (args : OpArgs) :
    (orInsertArg key value args).lookup key' = args.lookup key' := by
  unfold orInsertArg
  split
  · rfl
  · rw [lookup_insertArg, if_neg hne]

theorem mem_orInsertArg {key : String} (hmem : entry ∈ orInsertArg key value args) :
    entry = (key, value) ∨ entry ∈ args := by
  unfold orInsertArg at hmem
  split at hmem
  · exact .inr hmem
  · exact mem_insertArg hmem

theorem lookup_updateArg (key : String) (update : String → String) (key' : String) (args : OpArgs) :
    (updateArg key update args).lookup key' =
      if key' = key then (args.lookup key').map update else args.lookup key' := by
  induction args with
  | nil => simp [updateArg]
  | cons entry rest ih =>
    have hkeys : (if entry.1 = key then (entry.1, update entry.2) else entry).1 = entry.1 := by
      split <;> rfl
    rw [updateArg, map_cons, lookup_cons, lookup_cons, hkeys]
    by_cases hhead : key' = entry.1
    · subst hhead
      simp only [beq_self_eq_true]
      split <;> rfl
    · rw [beq_eq_false_iff_ne.2 hhead]
      exact ih

/-! ## Values -/

/-- Reading a value splits the text and loses nothing. -/
theorem bareValue_append (depth : Depth) (cs : List Char) :
    (bareValue depth cs).1 ++ (bareValue depth cs).2 = cs := by
  induction cs generalizing depth with
  | nil => rfl
  | cons c cs ih =>
    unfold bareValue
    split
    · rfl
    · simp [ih]

/-- No blank of the text stands outside all brackets. -/
def Enclosed (depth : Depth) (cs : List Char) : Prop :=
  ∀ before c after, cs = before ++ c :: after → isWhitespace c = true →
    before.foldl Depth.step depth ≠ ({} : Depth)

theorem enclosed_cons :
    Enclosed depth (c :: cs) ↔
      ¬ (isWhitespace c = true ∧ depth = {}) ∧ Enclosed (depth.step c) cs := by
  constructor
  · intro henclosed
    refine ⟨fun ⟨hblank, hdepth⟩ => henclosed [] c cs rfl hblank hdepth,
      fun before d after heq hblank => ?_⟩
    exact henclosed (c :: before) d after (by rw [heq]; rfl) hblank
  · rintro ⟨hhead, htail⟩ before d after heq hblank
    cases before with
    | nil =>
      cases heq
      exact fun hdepth => hhead ⟨hblank, hdepth⟩
    | cons b before =>
      obtain ⟨rfl, hcs⟩ := List.cons.inj heq
      exact htail before d after hcs hblank

/-- A value runs to the end if no blank stands outside brackets. -/
theorem bareValue_eq_nil_iff : (bareValue depth cs).2 = [] ↔ Enclosed depth cs := by
  induction cs generalizing depth with
  | nil => simp [bareValue, Enclosed]
  | cons c cs ih =>
    rw [enclosed_cons, ← ih, bareValue]
    split
    next hstop => simp [hstop]
    next hgo => simp [hgo]

/-- The quotes around a text without blanks at its ends come off again. -/
theorem extractStringValue_quoted (inside : List Char) :
    extractStringValue (trim ('"' :: inside ++ ['"'])) = inside := by
  have htrim : trim ('"' :: inside ++ ['"']) = '"' :: inside ++ ['"'] := by
    refine trim_eq_self (fun c hc => ?_) fun c hc => ?_
    · cases hc
      decide
    · rw [getLast?_concat] at hc
      cases hc
      decide
  rw [htrim, extractStringValue, if_pos ⟨rfl, getLast?_concat, by simp⟩]
  simp

/-- A text with a single quote, in front, keeps it. -/
theorem extractStringValue_open (hquote : '"' ∉ cs) :
    extractStringValue (trim ('"' :: cs)) = trim ('"' :: cs) := by
  have htrim : trim ('"' :: cs) = '"' :: trimEnd cs :=
    @trim_append ['"'] cs (by simp) (by simp; decide) (by simp; decide)
  rw [htrim, extractStringValue, if_neg]
  rintro ⟨-, hlast, hlength⟩
  have hmem : '"' ∈ trimEnd cs := by
    cases hrest : trimEnd cs with
    | nil => simp [hrest] at hlength
    | cons c rest =>
      rw [hrest] at hlast
      exact mem_of_getLast? hlast
  exact hquote ((trimEnd_isPrefix _).subset hmem)

/-- A value is a part of the text, and what is left is its end. -/
theorem readValue_parts (cs : List Char) :
    ((readValue cs).1 <:+: cs) ∧ ((readValue cs).2 <:+ cs) := by
  unfold readValue
  split
  next stripped =>
    split
    next inside after hsplit =>
      rw [extractStringValue_quoted, (splitOnce_parts hsplit).1]
      refine ⟨⟨['"'], '"' :: after, by simp⟩, ?_⟩
      exact (trimStart_isSuffix _).trans ⟨'"' :: inside ++ ['"'], by simp⟩
    next hsplit =>
      rw [extractStringValue_open (splitOnce_eq_none_iff.1 hsplit)]
      exact ⟨trim_isInfix _, nil_suffix⟩
  next =>
    have happend := bareValue_append {} cs
    refine ⟨?_, ?_⟩
    · have hvalue : (bareValue {} cs).1 <:+: cs := ⟨[], (bareValue {} cs).2, by simpa using happend⟩
      exact (trim_isInfix _).trans hvalue
    · exact (trimStart_isSuffix _).trans ⟨(bareValue {} cs).1, happend⟩

/-- A text that is read back as one value: no blank at either end, and
either a quote in front that nothing closes, or no blank outside all
brackets. -/
structure Whole (text : List Char) : Prop where
  trimmed : trim text = text
  unbroken : (text.head? = some '"' ∧ '"' ∉ text.tail) ∨
    (text.head? ≠ some '"' ∧ Enclosed {} text)

/-- A whole text is read back; of any other one something is lost. -/
theorem readValue_cases (text : List Char) :
    (Whole text ∧ readValue text = (text, [])) ∨
      (¬ Whole text ∧ (readValue text).1.length < text.length) := by
  unfold readValue
  split
  next stripped =>
    split
    next inside after hsplit =>
      refine .inr ⟨?_, ?_⟩
      · rintro ⟨-, ⟨-, hnot⟩ | ⟨hne, -⟩⟩
        · exact hnot (by simp [(splitOnce_parts hsplit).1])
        · exact hne rfl
      · rw [extractStringValue_quoted, (splitOnce_parts hsplit).1]
        simp only [length_append, length_cons]
        omega
    next hsplit =>
      have hquote := splitOnce_eq_none_iff.1 hsplit
      rw [extractStringValue_open hquote]
      by_cases htrim : trim ('"' :: stripped) = '"' :: stripped
      · exact .inl ⟨⟨htrim, .inl ⟨rfl, hquote⟩⟩, by rw [htrim]⟩
      · exact .inr ⟨fun whole => htrim whole.trimmed,
          not_le.1 fun hlength => htrim (trim_eq_of_length hlength)⟩
  next hhead =>
    have hnot : text.head? ≠ some '"' := by
      intro hquote
      obtain ⟨rest, hrest⟩ := head?_eq_some_iff.1 hquote
      exact hhead rest hrest
    have happend := bareValue_append {} text
    by_cases henclosed : Enclosed {} text
    · have hrest := bareValue_eq_nil_iff.2 henclosed
      rw [hrest, append_nil] at happend
      by_cases htrim : trim text = text
      · refine .inl ⟨⟨htrim, .inr ⟨hnot, henclosed⟩⟩, ?_⟩
        simp only [hrest, happend, htrim]
        rfl
      · refine .inr ⟨fun whole => htrim whole.trimmed, ?_⟩
        simp only [happend]
        exact not_le.1 fun hlength => htrim (trim_eq_of_length hlength)
    · refine .inr ⟨?_, ?_⟩
      · rintro ⟨-, ⟨hquote, -⟩ | ⟨-, henclosed'⟩⟩
        · exact hnot hquote
        · exact henclosed henclosed'
      · have hne : (bareValue {} text).2 ≠ [] := fun h => henclosed (bareValue_eq_nil_iff.1 h)
        have hlength := congrArg List.length happend
        rw [length_append] at hlength
        have := length_pos_of_ne_nil hne
        have := length_trim_le (bareValue {} text).1
        dsimp only
        omega

/-! ## Pairs -/

/-- The length of the text is fuel enough. -/
theorem kvPairs_congr {fuel' : Nat} (hfuel : cs.length ≤ fuel) (hfuel' : cs.length ≤ fuel') :
    kvPairs fuel cs = kvPairs fuel' cs := by
  induction fuel generalizing fuel' cs with
  | zero =>
    obtain rfl := eq_nil_of_length_eq_zero (Nat.le_zero.1 hfuel)
    cases fuel' <;> rfl
  | succ fuel ih =>
    cases fuel' with
    | zero =>
      obtain rfl := eq_nil_of_length_eq_zero (Nat.le_zero.1 hfuel')
      rfl
    | succ fuel' =>
      unfold kvPairs
      split
      next => rfl
      next key after hsplit =>
        have hrest := (readValue_parts after).2.length_le
        rw [(splitOnce_parts hsplit).1] at hfuel hfuel'
        simp only [length_append, length_cons] at hfuel hfuel'
        rw [@ih (readValue after).2 fuel' (by omega) (by omega)]

theorem kvEntries_of_splitOnce {after : List Char} (hsplit : splitOnce '=' cs = some (key, after)) :
    kvEntries cs = (trim key, (readValue after).1) :: kvEntries (readValue after).2 := by
  have hlength := congrArg List.length (splitOnce_parts hsplit).1
  simp only [length_append, length_cons] at hlength
  have hrest := (readValue_parts after).2.length_le
  obtain ⟨fuel, hfuel⟩ : ∃ fuel, cs.length = fuel + 1 := ⟨key.length + after.length, by omega⟩
  rw [kvEntries, hfuel, kvPairs, hsplit, kvEntries]
  dsimp only
  rw [@kvPairs_congr _ fuel (readValue after).2.length (by omega) le_rfl]

/-- The value of a pair is a part of the text, and shorter. -/
theorem mem_kvPairs (hmem : pair ∈ kvPairs fuel cs) : pair.2 ⊆ cs ∧ pair.2.length < cs.length := by
  induction fuel generalizing cs with
  | zero => cases hmem
  | succ fuel ih =>
    unfold kvPairs at hmem
    split at hmem
    next => exact nomatch hmem
    next key after hsplit =>
      obtain ⟨hvalue, hrest⟩ := readValue_parts after
      have hafter : after <:+ cs := ⟨key ++ ['='], by simp [(splitOnce_parts hsplit).1]⟩
      have hlength := congrArg List.length (splitOnce_parts hsplit).1
      simp only [length_append, length_cons] at hlength
      rcases mem_cons.1 hmem with rfl | hmem
      · refine ⟨List.Subset.trans hvalue.subset hafter.subset, ?_⟩
        have := hvalue.length_le
        dsimp only
        omega
      · obtain ⟨hsubset, hshort⟩ := ih hmem
        exact ⟨List.Subset.trans hsubset (List.Subset.trans hrest.subset hafter.subset),
          by have := hrest.length_le; omega⟩

theorem mem_foldl_insertPair {pairs : List (List Char × List Char)}
    (hmem : entry ∈ pairs.foldl insertPair args) :
    entry ∈ args ∨ ∃ pair ∈ pairs, entry = (String.ofList pair.1, String.ofList pair.2) := by
  induction pairs generalizing args with
  | nil => exact .inl hmem
  | cons pair pairs ih =>
    rcases ih hmem with hmem | ⟨other, hother, heq⟩
    · unfold insertPair at hmem
      split at hmem
      · exact .inl hmem
      · rcases mem_insertArg hmem with rfl | hmem
        · exact .inr ⟨pair, mem_cons_self, rfl⟩
        · exact .inl hmem
    · exact .inr ⟨other, mem_cons_of_mem _ hother, heq⟩

theorem mem_parseKvArgs (hmem : entry ∈ parseKvArgs cs) :
    ∃ pair ∈ kvEntries (trim cs), entry = (String.ofList pair.1, String.ofList pair.2) :=
  (mem_foldl_insertPair hmem).resolve_left not_mem_nil

/-! ## Written arguments -/

/-- The characters of names and types. -/
def isPlainChar (c : Char) : Bool :=
  c.isAlphanum || c ∈ ['_', '.', '<', '>', ',', ':']

def Plain (word : List Char) : Prop := ∀ c ∈ word, isPlainChar c = true

instance decidablePlain (word : List Char) : Decidable (Plain word) :=
  List.decidableBAll (fun c => isPlainChar c = true) word

theorem ascii_of_isPlainChar (h : isPlainChar c = true) : c.toNat < 128 := by
  rw [isPlainChar, Bool.or_eq_true, decide_eq_true_eq] at h
  rcases h with h | h
  · exact ascii_of_isAlphanum h
  · simp only [mem_cons, not_mem_nil, or_false] at h
    rcases h with rfl | rfl | rfl | rfl | rfl | rfl <;> decide

theorem forall_ascii {P : Char → Prop} (h : ∀ n < 128, P (Char.ofNat n)) (hc : c.toNat < 128) :
    P c := by
  have := h c.toNat hc
  rwa [Char.ofNat_toNat] at this

/-- The characters that shape a line of the change language. -/
def shapesLine (c : Char) : Bool :=
  isWhitespace c || c ∈ ['"', '=', '\n', '-', '(', ')', '\x7b', '\x7d', '[', ']']

/-- A plain character is none of the characters that shape a line. -/
theorem plain_char (h : isPlainChar c = true) :
    isWhitespace c = false ∧ c ≠ '"' ∧ c ≠ '=' ∧ c ≠ '\n' ∧ c ≠ '-' ∧
      ∀ depth : Depth, depth.step c = depth := by
  have hall : (isPlainChar c && shapesLine c) = false :=
    forall_ascii (P := fun c => (isPlainChar c && shapesLine c) = false) (by decide +kernel)
      (ascii_of_isPlainChar h)
  rw [h, Bool.true_and, shapesLine, Bool.or_eq_false_iff, decide_eq_false_iff_not] at hall
  simp only [mem_cons, not_or] at hall
  obtain ⟨hblank, hquote, hequals, hline, hdash, h1, h2, h3, h4, h5, h6⟩ := hall
  exact ⟨hblank, hquote, hequals, hline, hdash, fun depth => by simp [Depth.step, *]⟩

theorem Plain.trim_eq (plain : Plain word) : trim word = word :=
  trim_of_no_blank fun c hc => (plain_char (plain c hc)).1

theorem Plain.enclosed (plain : Plain word) (depth : Depth) : Enclosed depth word := by
  rintro before c after rfl hblank
  rw [(plain_char (plain c (by simp))).1] at hblank
  cases hblank

theorem Plain.whole (plain : Plain word) : Whole word := by
  refine ⟨plain.trim_eq, .inr ⟨fun hquote => ?_, plain.enclosed _⟩⟩
  exact (plain_char (plain _ (mem_of_mem_head? hquote))).2.1 rfl

theorem bareValue_plain (plain : Plain word) (rest : List Char) :
    bareValue {} (word ++ ' ' :: rest) = (word, ' ' :: rest) := by
  induction word with
  | nil => rfl
  | cons c word ih =>
    obtain ⟨hblank, -, -, -, -, hstep⟩ := plain_char (plain c mem_cons_self)
    rw [cons_append, bareValue, if_neg (by simp [hblank]), hstep,
      ih fun d hd => plain d (mem_cons_of_mem _ hd)]

/-- A plain word is read up to the blank. -/
theorem readValue_plain (plain : Plain word) (rest : List Char) :
    readValue (word ++ ' ' :: rest) = (word, trimStart rest) := by
  unfold readValue
  split
  next stripped heq =>
    cases word with
    | nil => cases heq
    | cons c word =>
      cases heq
      exact absurd rfl (plain_char (plain '"' (.head _))).2.1
  next =>
    rw [bareValue_plain plain]
    simp only [plain.trim_eq]
    rfl

theorem splitOnce_key (plain : Plain key) (rest : List Char) :
    splitOnce '=' (key ++ '=' :: rest) = some (key, rest) :=
  splitOnce_append rest fun hmem => (plain_char (plain '=' hmem)).2.2.1 rfl

/-- A plain word that a blank follows. -/
theorem kvEntries_plain (hkey : Plain key) (hword : Plain word) (rest : List Char) :
    kvEntries (key ++ '=' :: word ++ ' ' :: rest) = (key, word) :: kvEntries (trimStart rest) := by
  rw [append_assoc, cons_append,
    kvEntries_of_splitOnce (splitOnce_key hkey _), hkey.trim_eq, readValue_plain hword]

/-- The last pair of a line, when its value is whole. -/
theorem kvEntries_whole (hkey : Plain key) (whole : Whole text) :
    kvEntries (key ++ '=' :: text) = [(key, text)] := by
  have hread : readValue text = (text, []) := by
    rcases readValue_cases text with ⟨-, hread⟩ | ⟨hnot, -⟩
    · exact hread
    · exact absurd whole hnot
  rw [kvEntries_of_splitOnce (splitOnce_key hkey _), hkey.trim_eq, hread]
  rfl

/-- The last pair of a line and what follows it, when its value is not
whole: every value is shorter than what was written. -/
theorem length_lt_of_not_whole (hkey : Plain key) (hnot : ¬ Whole text)
    (hmem : pair ∈ kvEntries (key ++ '=' :: trimEnd text)) : pair.2.length < text.length := by
  have hend := (trimEnd_isPrefix text).length_le
  obtain ⟨hvalue, hrest⟩ := readValue_parts (trimEnd text)
  rw [kvEntries_of_splitOnce (splitOnce_key hkey _)] at hmem
  rcases mem_cons.1 hmem with rfl | hmem
  · rcases readValue_cases (trimEnd text) with ⟨whole, hread⟩ | ⟨-, hshort⟩
    · -- Blanks at the end were cut off before the value was read.
      refine lt_of_le_of_ne (hvalue.length_le.trans hend) fun heq => hnot ?_
      rw [hread] at heq
      have hsame : trimEnd text = text := (trimEnd_isPrefix text).eq_of_length heq
      rwa [hsame] at whole
    · exact hshort.trans_le hend
  · have := (mem_kvPairs hmem).2
    have := hrest.length_le
    omega

/-! ## Lines -/

theorem parseChangeLineAttrs_parsedOps {tokens : List (List Char)}
    (hparse : parseChangeLineAttrs lineNum tokens state = .ok state') :
    state'.parsedOps = state.parsedOps := by
  induction tokens generalizing state with
  | nil => cases hparse; rfl
  | cons token tokens ih =>
    unfold parseChangeLineAttrs at hparse
    split at hparse
    · have := ih hparse
      exact this
    · split at hparse
      · cases hparse
      · have := ih hparse
        exact this
    · exact ih hparse

theorem directives_parsedOps {entry : String × (List Char → AclState → Except String AclState)}
    (hmem : entry ∈ directives lineNum) {value : List Char}
    (hrun : entry.2 value state = .ok state') : state'.parsedOps = state.parsedOps := by
  simp only [directives, mem_cons, not_mem_nil, or_false] at hmem
  rcases hmem with rfl | rfl | rfl | rfl | rfl | rfl | rfl | rfl | rfl | rfl | rfl | rfl | rfl |
    rfl | rfl | rfl | rfl | rfl
  case inr.inr.inr.inl =>
    dsimp only at hrun
    cases hbase : parseSnapshotId lineNum (trim value) with
    | error message => rw [hbase] at hrun; exact nomatch hrun
    | ok base => rw [hbase] at hrun; cases hrun; rfl
  case inr.inr.inr.inr.inl =>
    dsimp only at hrun
    split at hrun <;> cases hrun <;> rfl
  all_goals cases hrun; rfl

theorem parseMetadataLine_parsedOps (hparse : parseMetadataLine lineNum line state = .ok state') :
    state'.parsedOps = state.parsedOps := by
  unfold parseMetadataLine at hparse
  split at hparse
  next run hfind =>
    obtain ⟨entry, hmem, hentry⟩ := exists_of_findSome?_eq_some hfind
    obtain ⟨value, -, rfl⟩ := Option.map_eq_some_iff.1 hentry
    exact directives_parsedOps hmem hparse
  next => split at hparse <;> exact nomatch hparse

/-- What one line does to the ops read so far: nothing, unless it is an
`op` line, which adds one. -/
def AddsOp (line : List Char) (state state' : AclState) : Prop :=
  state'.parsedOps = state.parsedOps ∨
    ∃ rest kind, line = "op ".toList ++ rest ∧ state'.parsedOps = state.parsedOps ++
      [⟨kind, String.ofList (splitVerb rest).1, parseKvArgs (splitVerb rest).2⟩]

theorem parseOpOrDirective_parsedOps (hparse : parseOpOrDirective lineNum line state = .ok state') :
    AddsOp line state state' := by
  unfold parseOpOrDirective at hparse
  split at hparse
  next rest hstrip =>
    unfold parseOp at hparse
    dsimp only at hparse
    split at hparse
    next => exact nomatch hparse
    next kind hkind =>
      cases hparse
      exact .inr ⟨rest, kind, stripFront_eq_some_iff.1 hstrip, rfl⟩
  next =>
    split at hparse
    · exact .inl (parseMetadataLine_parsedOps hparse)
    · cases hparse

theorem parseSectionLine_parsedOps (hparse : parseSectionLine lineNum line state = .ok state') :
    AddsOp line state state' := by
  unfold parseSectionLine at hparse
  split at hparse
  · exact .inl (parseMetadataLine_parsedOps hparse)
  · cases hprecondition : parsePreconditionLine lineNum line with
    | error message => rw [hprecondition] at hparse; exact nomatch hparse
    | ok precondition => rw [hprecondition] at hparse; cases hparse; exact .inl rfl
  · exact parseOpOrDirective_parsedOps hparse
  · exact parseOpOrDirective_parsedOps hparse
  all_goals cases hparse; exact .inl rfl

theorem verifyLine_parsedOps (hline : verifyLine line state = some state') :
    state'.parsedOps = state.parsedOps := by
  unfold verifyLine at hline
  split at hline
  · split at hline
    · cases hline; rfl
    · split at hline
      · cases hline; rfl
      · split at hline
        · cases hline; rfl
        · cases hline
  · cases hline

theorem parseBodyLine_parsedOps (hparse : parseBodyLine lineNum line state = .ok state') :
    AddsOp line state state' := by
  unfold parseBodyLine at hparse
  split at hparse
  · cases hheader : parseBlockHeader lineNum (line.drop 6) with
    | error message => rw [hheader] at hparse; exact nomatch hparse
    | ok block => rw [hheader] at hparse; cases hparse; exact .inl rfl
  · split at hparse
    next hline => cases hparse; exact .inl (verifyLine_parsedOps hline)
    next =>
      split at hparse
      · cases hparse; exact .inl rfl
      · exact parseSectionLine_parsedOps hparse

/-- One line adds at most the op it holds. -/
theorem parseLine_parsedOps (hparse : parseLine lineNum line state = .ok state') :
    AddsOp line state state' := by
  unfold parseLine at hparse
  split at hparse
  · cases hparse
    left
    unfold skipLine
    split
    · split <;> rfl
    · rfl
  split at hparse
  · unfold openChange at hparse
    split at hparse
    · cases hparse
    · have := parseChangeLineAttrs_parsedOps hparse
      exact .inl this
  split at hparse
  · cases hparse
    left
    unfold closeInnermost
    split
    · rfl
    · split
      · rfl
      · split <;> rfl
  · split at hparse
    · cases hparse; exact .inl rfl
    · exact parseBodyLine_parsedOps hparse

/-- No value of an argument has a line break. -/
def OneLine (op : ParsedOp) : Prop := ∀ entry ∈ op.args, '\n' ∉ entry.2.toList

theorem parseKvArgs_oneLine (hline : '\n' ∉ line) :
    ∀ entry ∈ parseKvArgs line, '\n' ∉ entry.2.toList := by
  intro entry hmem
  obtain ⟨pair, hpair, rfl⟩ := mem_parseKvArgs hmem
  rw [String.toList_ofList]
  exact fun hbreak => hline (mem_of_mem_trim ((mem_kvPairs hpair).1 hbreak))

theorem parseLine_oneLine (hline : '\n' ∉ line) (hops : ∀ op ∈ state.parsedOps, OneLine op)
    (hparse : parseLine lineNum line state = .ok state') : ∀ op ∈ state'.parsedOps, OneLine op := by
  intro op hmem
  rcases parseLine_parsedOps hparse with hsame | ⟨rest, kind, rfl, hadded⟩
  · exact hops op (hsame ▸ hmem)
  · rw [hadded] at hmem
    rcases mem_append.1 hmem with hmem | hmem
    · exact hops op hmem
    · rw [mem_singleton.1 hmem]
      refine parseKvArgs_oneLine fun hbreak => hline (mem_append_right _ ?_)
      exact (dropWhile_suffix _).subset (mem_of_mem_drop (mem_of_mem_trim hbreak))

/-- No value read from lines has a line break. -/
theorem parseLines_oneLine {lines : List (List Char)} (hlines : ∀ line ∈ lines, '\n' ∉ line)
    (hops : ∀ op ∈ state.parsedOps, OneLine op)
    (hparse : parseLines lineNum lines state = .ok state') :
    ∀ op ∈ state'.parsedOps, OneLine op := by
  induction lines generalizing lineNum state with
  | nil => cases hparse; exact hops
  | cons line lines ih =>
    unfold parseLines at hparse
    split at hparse
    next => exact nomatch hparse
    next next hline =>
      exact ih (fun line hmem => hlines line (.tail _ hmem))
        (parseLine_oneLine (hlines line (.head _)) hops hline) hparse

/-- Whatever the document, the values of its ops are single lines. -/
theorem parseChangeset_oneLine {src : List Char} {parsed : ParsedChangeSet}
    (hparse : parseChangeset src = .ok parsed) : ∀ op ∈ parsed.parsedOps, OneLine op := by
  unfold parseChangeset at hparse
  split at hparse
  next => exact nomatch hparse
  next state hlines =>
    have hops : ∀ op ∈ state.parsedOps, OneLine op := by
      refine parseLines_oneLine (fun line hmem => ?_) (by simp) hlines
      obtain ⟨raw, hraw, rfl⟩ := mem_map.1 hmem
      exact fun hbreak => not_mem_of_mem_textLines hraw (mem_of_mem_trim hbreak)
    unfold finishParse at hparse
    split at hparse
    · cases hparse
    split at hparse
    · cases hparse
    split at hparse
    · cases hparse
    · cases hparse
    · cases hparse; exact hops

end Ail.Change
