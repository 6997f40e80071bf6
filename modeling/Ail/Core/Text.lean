import Mathlib

/-!
# Texts

The text functions of the standard library that the crates rely on to
clean and take apart their inputs, over the characters of a text.
-/

namespace Ail.Core

open List

instance lawfulBEqText : LawfulBEq (List Char) := inferInstance

/-- `char::is_whitespace`: the Unicode property `White_Space`. -/
def isWhitespace (c : Char) : Bool :=
  let code := c.toNat
  (0x9 ≤ code && code ≤ 0xD) || code == 0x20 || code == 0x85 || code == 0xA0 || code == 0x1680 ||
    (0x2000 ≤ code && code ≤ 0x200A) || code == 0x2028 || code == 0x2029 || code == 0x202F ||
    code == 0x205F || code == 0x3000

/-- `str::trim`. -/
def trim (cs : List Char) : List Char :=
  ((cs.dropWhile isWhitespace).reverse.dropWhile isWhitespace).reverse

/-- `text.trim().is_empty()`. -/
def isBlank (text : String) : Bool := trim text.toList = []

/-- The part of the Unicode tables behind `char::is_alphanumeric`. Only
its ASCII part is fixed here. -/
structure CharTables where
  isAlphanumeric : Char → Bool
  isAlphanumeric_ascii : ∀ c, c.toNat < 128 → isAlphanumeric c = c.isAlphanum

/-- The tables of a world without letters outside ASCII. -/
def CharTables.ascii : CharTables := ⟨Char.isAlphanum, fun _ _ => rfl⟩

/-- What the checkers take from the standard library besides. -/
structure TextStd extends CharTables where
  /-- `{:?}` of a list of strings. -/
  debugStrings : List String → String
  /-- `str::to_lowercase`. -/
  toLowercase : String → String

/-- Nothing beyond ASCII, and lists of strings printed as nothing. -/
def TextStd.ascii : TextStd :=
  { CharTables.ascii with debugStrings := fun _ => "", toLowercase := String.toLower }

/-- The characters the verifier allows in an identifier. -/
def CharTables.isIdentChar (tables : CharTables) (c : Char) : Bool :=
  tables.isAlphanumeric c || c == '_' || c == '.'

/-- `str::trim_end`. -/
def trimEnd (cs : List Char) : List Char := cs.rdropWhile isWhitespace

/-- `str::trim_start`. -/
def trimStart (cs : List Char) : List Char := cs.dropWhile isWhitespace

/-- `str::starts_with`. -/
def startsWith (text part : String) : Bool := part.toList.isPrefixOf text.toList

/-- `str::strip_prefix`. -/
def stripFront (part : String) (cs : List Char) : Option (List Char) := part.toList.isPrefixOf? cs

/-- `str::strip_suffix` of a character. -/
def stripBack (last : Char) (cs : List Char) : Option (List Char) :=
  if cs.getLast? = some last then some cs.dropLast else none

/-- `str::split_once` at a character. -/
def splitOnce (separator : Char) : List Char → Option (List Char × List Char)
  | [] => none
  | c :: cs =>
    if c = separator then some ([], cs)
    else (splitOnce separator cs).map fun parts => (c :: parts.1, parts.2)

/-- The text before and after the first occurrence of a pattern, as
`str::find` and two slices give them. -/
def splitOnceText (pattern : List Char) : List Char → Option (List Char × List Char)
  | [] => if pattern = [] then some ([], []) else none
  | c :: cs =>
    if pattern.isPrefixOf (c :: cs) then some ([], (c :: cs).drop pattern.length)
    else (splitOnceText pattern cs).map fun parts => (c :: parts.1, parts.2)

/-- `str::contains`, for a pattern that is not empty. -/
def containsText (pattern : String) (cs : List Char) : Bool :=
  (splitOnceText pattern.toList cs).isSome

/-- `str::split` at a character. -/
def splitAtChar (separator : Char) : List Char → List (List Char)
  | [] => [[]]
  | c :: cs =>
    if c = separator then [] :: splitAtChar separator cs
    else match splitAtChar separator cs with
      | [] => [[c]]
      | part :: parts => (c :: part) :: parts

/-- `str::lines`: a line ends at a line feed, which a carriage return may
come before; a text that ends with one has no further line. -/
def textLines (cs : List Char) : List (List Char) :=
  let parts := splitAtChar '\n' cs
  parts.dropLast.map (fun line => (stripBack '\r' line).getD line) ++
    parts.getLast?.toList.filter (· ≠ [])

/-- `str::split_whitespace`. -/
def splitWhitespace : List Char → List (List Char)
  | [] => []
  | c :: cs =>
    if isWhitespace c then splitWhitespace cs
    else match cs with
      | [] => [[c]]
      | next :: _ =>
        if isWhitespace next then [c] :: splitWhitespace cs
        else match splitWhitespace cs with
          | [] => [[c]]
          | word :: words => (c :: word) :: words

/-- `str::replace` of a pattern of two characters. -/
def replacePair (first second : Char) (replacement : List Char) : List Char → List Char
  | a :: b :: rest =>
    if a = first ∧ b = second then replacement ++ replacePair first second replacement rest
    else a :: replacePair first second replacement (b :: rest)
  | rest => rest

/-! ## Trimming -/

theorem trim_eq_rdropWhile (cs : List Char) :
    trim cs = (cs.dropWhile isWhitespace).rdropWhile isWhitespace := rfl

variable {c separator : Char} {cs : List Char}

theorem mem_of_mem_trim (hmem : c ∈ trim cs) : c ∈ cs :=
  (dropWhile_suffix _).subset ((List.rdropWhile_prefix _ _).subset hmem)

theorem mem_trim_or_blank (hmem : c ∈ cs) : c ∈ trim cs ∨ isWhitespace c = true := by
  rw [← takeWhile_append_dropWhile (p := isWhitespace) (l := cs), mem_append] at hmem
  obtain hmem | hmem := hmem
  · exact .inr (mem_takeWhile_imp hmem)
  rw [← rdropWhile_append_rtakeWhile (p := isWhitespace) (l := cs.dropWhile isWhitespace),
    mem_append] at hmem
  exact hmem.imp_right mem_rtakeWhile_imp

theorem head?_trim (hhead : (trim cs).head? = some c) : isWhitespace c = false := by
  have hlead : trim cs <+: cs.dropWhile isWhitespace := List.rdropWhile_prefix _ _
  obtain ⟨rest, hrest⟩ := head?_eq_some_iff.1 hhead
  obtain ⟨tail, htail⟩ := hlead
  have hnot := head?_dropWhile_not isWhitespace cs
  rw [← htail, hrest] at hnot
  simpa using hnot

theorem getLast?_trim (hlast : (trim cs).getLast? = some c) : isWhitespace c = false := by
  rw [trim_eq_rdropWhile] at hlast
  obtain ⟨hne, heq⟩ := mem_getLast?_eq_getLast hlast
  have hnot := rdropWhile_last_not isWhitespace _ hne
  rw [← heq] at hnot
  simpa using hnot

/-- A text with neither end blank is its own trimmed form. -/
theorem trim_eq_self (hhead : ∀ c, cs.head? = some c → isWhitespace c = false)
    (hlast : ∀ c, cs.getLast? = some c → isWhitespace c = false) : trim cs = cs := by
  have hdrop : cs.dropWhile isWhitespace = cs := by
    cases cs with
    | nil => rfl
    | cons c cs => simp [hhead c rfl]
  rw [trim_eq_rdropWhile, hdrop, rdropWhile_eq_self_iff]
  intro hne
  simp [hlast _ (getLast?_eq_some_getLast hne)]

theorem trim_of_no_blank (hcs : ∀ c ∈ cs, isWhitespace c = false) : trim cs = cs :=
  trim_eq_self (fun c hhead => hcs c (mem_of_mem_head? hhead))
    fun c hlast => hcs c (mem_of_getLast? hlast)

@[simp] theorem trim_trim (cs : List Char) : trim (trim cs) = trim cs :=
  trim_eq_self (fun _ => head?_trim) fun _ => getLast?_trim

theorem trim_concat_blank (hblank : isWhitespace c = true) : trim (cs ++ [c]) = trim cs := by
  rw [trim_eq_rdropWhile, dropWhile_append, trim_eq_rdropWhile]
  split
  next hnil => simp [List.isEmpty_iff.1 hnil, hblank]
  next => rw [rdropWhile_concat_pos _ _ _ hblank]

theorem trim_blank_cons (hblank : isWhitespace c = true) : trim (c :: cs) = trim cs := by
  simp [trim, hblank]

theorem trim_eq_trimStart_trimEnd (cs : List Char) : trim cs = trimEnd (trimStart cs) := rfl

theorem trimStart_isSuffix (cs : List Char) : trimStart cs <:+ cs := dropWhile_suffix _

theorem trimEnd_isPrefix (cs : List Char) : trimEnd cs <+: cs := List.rdropWhile_prefix _ _

theorem trim_isInfix (cs : List Char) : trim cs <:+: cs :=
  (trimEnd_isPrefix _).isInfix.trans (trimStart_isSuffix cs).isInfix

theorem length_trim_le (cs : List Char) : (trim cs).length ≤ cs.length :=
  (trim_isInfix cs).length_le

/-- A trimmed text that is not shorter is the text itself. -/
theorem trim_eq_of_length (hlength : cs.length ≤ (trim cs).length) : trim cs = cs :=
  (trim_isInfix cs).eq_of_length_le hlength

/-- Trimming a text whose first part has neither end blank takes blanks
off the second part only. -/
theorem trim_append {first second : List Char} (hne : first ≠ [])
    (hhead : ∀ c, first.head? = some c → isWhitespace c = false)
    (hlast : ∀ c, first.getLast? = some c → isWhitespace c = false) :
    trim (first ++ second) = first ++ trimEnd second := by
  obtain ⟨c, cs, rfl⟩ := exists_cons_of_ne_nil hne
  have hstart : trimStart (c :: cs ++ second) = c :: cs ++ second := by
    simp [trimStart, hhead c rfl]
  rw [trim_eq_trimStart_trimEnd, hstart]
  induction second using List.reverseRecOn with
  | nil =>
    rw [trimEnd, trimEnd, rdropWhile_nil, append_nil, rdropWhile_eq_self_iff]
    intro hne'
    simp [hlast _ (getLast?_eq_some_getLast hne')]
  | append_singleton second d ih =>
    rw [← append_assoc, trimEnd, trimEnd]
    by_cases hblank : isWhitespace d = true
    · rw [rdropWhile_concat_pos _ _ _ hblank, rdropWhile_concat_pos _ _ _ hblank]
      exact ih (by simp [trimStart, hhead c rfl])
    · rw [rdropWhile_concat_neg _ _ _ hblank, rdropWhile_concat_neg _ _ _ hblank, append_assoc]

theorem trim_stripBack_return (line : List Char) :
    trim ((stripBack '\r' line).getD line) = trim line := by
  unfold stripBack
  split
  next hlast =>
    obtain ⟨front, rfl⟩ := getLast?_eq_some_iff.1 hlast
    rw [Option.getD_some, dropLast_concat, trim_concat_blank (by decide)]
  next => rfl

/-! ## Splitting -/

/-- The parts of a split text hold its characters, without the separators. -/
theorem flatten_splitAtChar (cs : List Char) :
    (splitAtChar separator cs).flatten = cs.filter (· ≠ separator) := by
  induction cs with
  | nil => rfl
  | cons c cs ih =>
    rw [splitAtChar, filter_cons, ← ih]
    by_cases hc : c = separator
    · simp [hc]
    · cases splitAtChar separator cs <;> simp [hc]

theorem not_mem_of_mem_splitAtChar {part : List Char} (hpart : part ∈ splitAtChar separator cs) :
    separator ∉ part := by
  intro hmem
  have hflat := mem_flatten_of_mem hpart hmem
  simp [flatten_splitAtChar] at hflat

theorem splitAtChar_append (after : List Char) :
    ∀ {before : List Char}, separator ∉ before →
      splitAtChar separator (before ++ separator :: after) =
        before :: splitAtChar separator after
  | [], _ => by simp [splitAtChar]
  | b :: before, hnot => by
    rw [mem_cons, not_or] at hnot
    simp [splitAtChar, Ne.symm hnot.1, splitAtChar_append after hnot.2]

theorem not_mem_of_mem_textLines {line : List Char} (hmem : line ∈ textLines cs) : '\n' ∉ line := by
  rcases mem_append.1 hmem with hmem | hmem
  · obtain ⟨part, hpart, rfl⟩ := mem_map.1 hmem
    have hnot := not_mem_of_mem_splitAtChar (dropLast_subset _ hpart)
    unfold stripBack
    split
    · exact fun h => hnot (dropLast_subset _ h)
    · exact hnot
  · have hlast := (mem_filter.1 hmem).1
    rw [Option.mem_toList] at hlast
    exact not_mem_of_mem_splitAtChar (mem_of_getLast? hlast)

/-- Lines written out one after the other are read back, up to blanks. -/
theorem map_trim_textLines {written : List (List Char)} (hone : ∀ line ∈ written, '\n' ∉ line) :
    (textLines (written.flatMap (· ++ ['\n']))).map trim = written.map trim := by
  have hsplit : splitAtChar '\n' (written.flatMap (· ++ ['\n'])) = written ++ [[]] := by
    induction written with
    | nil => rfl
    | cons line written ih =>
      rw [flatMap_cons, append_assoc, singleton_append, splitAtChar_append _ (hone line (.head _)),
        ih fun line hmem => hone line (.tail _ hmem), cons_append]
  simp [textLines, hsplit, trim_stripBack_return]

theorem splitOnce_append (after : List Char) :
    ∀ {before : List Char}, separator ∉ before →
      splitOnce separator (before ++ separator :: after) = some (before, after)
  | [], _ => by simp [splitOnce]
  | b :: before, hnot => by
    rw [mem_cons, not_or] at hnot
    simp [splitOnce, Ne.symm hnot.1, splitOnce_append after hnot.2]

theorem splitOnce_eq_none_iff : splitOnce separator cs = none ↔ separator ∉ cs := by
  induction cs with
  | nil => simp [splitOnce]
  | cons c cs ih =>
    unfold splitOnce
    split
    next hc => simp [hc]
    next hc => simp [ih, Ne.symm hc]

theorem splitOnce_parts {before after : List Char}
    (hsplit : splitOnce separator cs = some (before, after)) :
    cs = before ++ separator :: after ∧ separator ∉ before := by
  have hmem : separator ∈ cs := by
    by_contra hnot
    rw [splitOnce_eq_none_iff.2 hnot] at hsplit
    cases hsplit
  obtain ⟨first, second, rfl, hnot⟩ := eq_append_cons_of_mem hmem
  rw [splitOnce_append second hnot] at hsplit
  cases hsplit
  exact ⟨rfl, hnot⟩

variable {part : String}

theorem stripFront_eq_some_iff {rest : List Char} :
    stripFront part cs = some rest ↔ cs = part.toList ++ rest := by
  rw [stripFront, isPrefixOf?_eq_some_iff_append_eq, eq_comm]

theorem stripFront_eq_none_iff : stripFront part cs = none ↔ ¬ part.toList <+: cs := by
  rw [← Option.not_isSome_iff_eq_none, Option.isSome_iff_exists]
  simp [stripFront_eq_some_iff, prefix_iff_exists_eq_append]

theorem eq_of_splitOnceText {pattern : List Char} :
    ∀ {cs before after : List Char}, splitOnceText pattern cs = some (before, after) →
      cs = before ++ pattern ++ after
  | [], before, after, h => by
    unfold splitOnceText at h
    split at h
    next hpattern => cases h; simp [hpattern]
    next => exact nomatch h
  | c :: cs, before, after, h => by
    unfold splitOnceText at h
    split at h
    next hlead =>
      cases h
      obtain ⟨rest, hrest⟩ := isPrefixOf_iff_prefix.1 hlead
      simp [← hrest]
    next =>
      obtain ⟨⟨first, second⟩, hparts, heq⟩ := Option.map_eq_some_iff.1 h
      cases heq
      simp [eq_of_splitOnceText hparts]

/-- The first occurrence is the one after a text without the first
character of the pattern. -/
theorem splitOnceText_append {pattern : List Char} (after : List Char) :
    ∀ {before : List Char}, c ∉ before →
      splitOnceText (c :: pattern) (before ++ c :: pattern ++ after) = some (before, after)
  | [], _ => by simp [splitOnceText]
  | b :: before, hnot => by
    rw [mem_cons, not_or] at hnot
    have hrest := @splitOnceText_append pattern after before hnot.2
    simp only [append_assoc, cons_append] at hrest
    simp [splitOnceText, hnot.1, hrest]

/-! ## Numbers -/

/-- The number a run of decimal digits spells. -/
def decimal (digits : List Char) : Nat :=
  digits.foldl (fun n c => 10 * n + (c.toNat - '0'.toNat)) 0

/-- `str::parse::<i64>` of an optional minus sign and a run of digits. -/
def parseI64 (negative : Bool) (digits : List Char) : Option Int64 :=
  let value : Int := if negative then -(decimal digits : Int) else decimal digits
  if -2 ^ 63 ≤ value ∧ value < 2 ^ 63 then some (Int64.ofInt value) else none

/-- `str::parse::<i64>`: an optional sign and at least one digit. -/
def i64FromStr (text : List Char) : Option Int64 :=
  let (negative, digits) := match text with
    | '-' :: digits => (true, digits)
    | '+' :: digits => (false, digits)
    | digits => (false, digits)
  if digits = [] ∨ ¬ digits.all Char.isDigit then none else parseI64 negative digits

/-- `str::parse::<u32>`: an optional plus sign and at least one digit. -/
def u32FromStr (text : List Char) : Option UInt32 :=
  let digits := match text with
    | '+' :: digits => digits
    | digits => digits
  if digits = [] ∨ ¬ digits.all Char.isDigit ∨ 2 ^ 32 ≤ decimal digits then none
  else some (UInt32.ofNat (decimal digits))

/-- `str::parse::<usize>` where `usize` has 64 bits. -/
def usizeFromStr (text : List Char) : Option Nat :=
  let digits := match text with
    | '+' :: digits => digits
    | digits => digits
  if digits = [] ∨ ¬ digits.all Char.isDigit ∨ 2 ^ 64 ≤ decimal digits then none
  else some (decimal digits)

theorem ascii_of_isAlphanum {c : Char} (h : c.isAlphanum = true) : c.toNat < 128 := by
  delta Char.isAlphanum Char.isAlpha Char.isUpper Char.isLower Char.isDigit at h
  simp only [Bool.or_eq_true, Bool.and_eq_true, decide_eq_true_eq, UInt32.le_iff_toNat_le] at h
  have hcode : c.toNat = c.val.toNat := rfl
  have hZ : 'Z'.val.toNat = 90 := rfl
  have hz : 'z'.val.toNat = 122 := rfl
  have h9 : '9'.val.toNat = 57 := rfl
  omega

end Ail.Core
