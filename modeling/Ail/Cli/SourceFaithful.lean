import Ail.Change.CanonicalFacts
import Ail.Cli.SourceScope

/-!
# From the text of a program to its graph

What `source_program_to_graph` makes of a loaded program. The program is
written as one line for each declaration, and the line of a body ends
with the text of the body.

The lines of a program whose texts have no line break are read back op
by op (`parseChangeset_program`), and the graph that the ops leave is
known from what they create and add (`view_program`). So the graph is
the program exactly if the last value of every line is read back as it
was written, no name is changed by normalization, no capability takes
the name of an item, and the refs do not run out.
-/

namespace Ail.Cli

open Ail.Core Change Lib List SourceProgram

/-! ## Lines as data -/

/-- A line of the program: plain words, then the last value. -/
structure OpText where
  verb : String
  words : List (String × List Char)
  key : String
  last : List Char

/-- The arguments of a line as they stand there. -/
def argsText (words : List (String × List Char)) (key : String) (last : List Char) : List Char :=
  words.foldr (fun word rest => word.1.toList ++ '=' :: word.2 ++ ' ' :: rest)
    (key.toList ++ '=' :: last)

def OpText.line (op : OpText) : List Char := opLine op.verb (op.words ++ [(op.key, op.last)])

theorem opLine_eq (verb : String) (words : List (String × List Char)) (key : String)
    (last : List Char) :
    opLine verb (words ++ [(key, last)]) =
      "op ".toList ++ (verb.toList ++ ' ' :: argsText words key last) := by
  have hargs : ((words ++ [(key, last)]).flatMap fun arg => ' ' :: arg.1.toList ++ '=' :: arg.2) =
      ' ' :: argsText words key last := by
    induction words with
    | nil => simp [argsText]
    | cons word words ih =>
      rw [cons_append, flatMap_cons, ih]
      simp [argsText]
  rw [opLine, hargs, append_assoc]

theorem argsText_append (words : List (String × List Char)) (key : String) (last : List Char) :
    argsText words key last = argsText words key [] ++ last := by
  induction words with
  | nil => simp [argsText]
  | cons word words ih =>
    simp only [argsText, foldr_cons] at ih ⊢
    rw [ih]
    simp

/-- Key and value of every word are plain, and so is the last key. -/
structure OpText.Clean (op : OpText) : Prop where
  words : ∀ word ∈ op.words, word.1 ≠ "" ∧ Plain word.1.toList ∧ Plain word.2
  key : op.key ≠ "" ∧ Plain op.key.toList

section Words

variable {words : List (String × List Char)} {key : String}
  (hwords : ∀ word ∈ words, word.1 ≠ "" ∧ Plain word.1.toList ∧ Plain word.2)
  (hkey : key ≠ "" ∧ Plain key.toList)

include hwords hkey

theorem head?_argsText (last : List Char) :
    ∃ c, (argsText words key last).head? = some c ∧ isWhitespace c = false := by
  have hname : ∀ {name : String} {rest : List Char}, name ≠ "" → Plain name.toList →
      ∃ c, (name.toList ++ rest).head? = some c ∧ isWhitespace c = false := by
    intro name rest hne plain
    obtain ⟨c, cs, hcs⟩ := exists_cons_of_ne_nil (l := name.toList) (by simpa using hne)
    exact ⟨c, by rw [hcs]; rfl, (plain_char (plain c (by rw [hcs]; exact .head _))).1⟩
  cases words with
  | nil => exact hname hkey.1 hkey.2
  | cons word words =>
    obtain ⟨hne, plain, -⟩ := hwords word (.head _)
    rw [argsText, foldr_cons, append_assoc]
    exact hname hne plain

theorem trimStart_argsText (last : List Char) :
    trimStart (argsText words key last) = argsText words key last := by
  obtain ⟨c, hhead, hblank⟩ := head?_argsText hwords hkey last
  obtain ⟨rest, hrest⟩ := head?_eq_some_iff.1 hhead
  simp [trimStart, hrest, hblank]

omit hwords hkey in
theorem getLast?_argsFront : (argsText words key []).getLast? = some '=' := by
  induction words with
  | nil => simp [argsText]
  | cons word words ih =>
    rw [argsText, foldr_cons, ← argsText, getLast?_append, getLast?_cons, ih]
    rfl

theorem trim_argsText (last : List Char) :
    trim (argsText words key last) = argsText words key (trimEnd last) := by
  rw [argsText_append, argsText_append words key (trimEnd last)]
  refine trim_append ?_ (fun c hc => ?_) fun c hc => ?_
  · intro hnil
    have := @getLast?_argsFront words key
    rw [hnil] at this
    cases this
  · obtain ⟨d, hhead, hblank⟩ := head?_argsText hwords hkey []
    rw [hhead] at hc
    cases hc
    exact hblank
  · rw [getLast?_argsFront] at hc
    cases hc
    decide

/-- The words are read back one by one; the last value is what it is. -/
theorem kvEntries_argsText (last : List Char) :
    kvEntries (argsText words key last) =
      words.map (fun word => (word.1.toList, word.2)) ++ kvEntries (key.toList ++ '=' :: last) := by
  induction words with
  | nil => rfl
  | cons word words ih =>
    obtain ⟨-, hname, hvalue⟩ := hwords word (.head _)
    have hrest := fun w hw => hwords w (.tail _ hw)
    rw [argsText, foldr_cons, ← argsText, kvEntries_plain hname hvalue,
      trimStart_argsText hrest hkey, ih hrest]
    rfl

end Words

/-! ## The ops of a program -/

/-- The verbs of the lines, each with the kind of its ops. -/
def sourceVerbs : List (String × ChangeSetOp) :=
  [("create_capability", .create), ("create_function", .create), ("create_test", .create),
    ("add_param", .add), ("grant", .grant)]

/-- The pairs that are read from a line. -/
def OpText.entries (op : OpText) : List (List Char × List Char) :=
  op.words.map (fun word => (word.1.toList, word.2)) ++
    kvEntries (op.key.toList ++ '=' :: trimEnd op.last)

/-- The op that is read from a line. -/
def OpText.parsed (op : OpText) : ParsedOp :=
  ⟨(sourceVerbs.lookup op.verb).getD .create, op.verb, op.entries.foldl insertPair []⟩

theorem trimEnd_trimEnd (cs : List Char) : trimEnd (trimEnd cs) = trimEnd cs :=
  rdropWhile_idempotent _ cs

theorem parseLine_op (lineNum : Nat) (rest : List Char) {state : AclState}
    (hcurrent : state.current = .topLevel) (hblock : state.currentBlock = none) :
    parseLine lineNum ("op ".toList ++ rest) state = parseOp lineNum rest state := by
  -- A word with another first letter is neither the line nor in front of it.
  have hnot : ∀ word : String, word.toList.head?.any (· ≠ 'o') = true →
      ¬ word.toList <+: 'o' :: 'p' :: ' ' :: rest := by
    rintro word hfirst ⟨tail, htail⟩
    cases hcs : word.toList with
    | nil =>
      rw [hcs] at hfirst
      cases hfirst
    | cons c cs =>
      rw [hcs] at hfirst htail
      exact of_decide_eq_true hfirst (List.cons.inj htail).1
  have hword : ∀ word : String, word.toList.head?.any (· ≠ 'o') = true →
      'o' :: 'p' :: ' ' :: rest ≠ word.toList :=
    fun word hfirst heq => hnot word hfirst (heq ▸ prefix_refl _)
  have hverify : verifyLine ('o' :: 'p' :: ' ' :: rest) state = none := by
    rw [verifyLine, stripFront_eq_none_iff.2 (hnot "verify " (by decide))]
    simp [hcurrent]
  have hops : ('o' :: 'p' :: ' ' :: rest) ≠ "ops".toList := fun heq => by
    have hthird : ' ' = 's' := (List.cons.inj (List.cons.inj (List.cons.inj heq).2).2).1
    exact absurd hthird (by decide)
  have hopener : sectionOpener ('o' :: 'p' :: ' ' :: rest) = none := by
    rw [sectionOpener, if_neg (hword "metadata" (by decide)), if_neg (hword "requires" (by decide)),
      if_neg hops, if_neg (hword "expect" (by decide)), if_neg (hword "approval" (by decide))]
  rw [show "op ".toList ++ rest = 'o' :: 'p' :: ' ' :: rest from rfl, parseLine, if_neg, if_neg,
    hblock]
  · simp only [parseBodyLine, hverify, hopener]
    rw [parseSectionLine, hcurrent]
    have hstrip : stripFront "op " ('o' :: 'p' :: ' ' :: rest) = some rest :=
      stripFront_eq_some_iff.2 rfl
    simp [parseOpOrDirective, hstrip]
  · rintro (h | h)
    · exact hnot "change " (by decide) h
    · exact hword "change" (by decide) h
  · rintro (h | h)
    · cases h
    · exact absurd (Option.some.inj h) (by decide)

variable {op : OpText} {state : AclState} {ops : List OpText} {payload : OpPayload} {c : Char}

theorem splitVerb_append {verb : List Char} (hverb : verb.all (!isWhitespace ·) = true)
    (htrim : trim verb = verb) (rest : List Char) :
    splitVerb (verb ++ ' ' :: rest) = (verb, trim rest) := by
  rw [splitVerb, takeWhile_append_of_pos (all_eq_true.1 hverb),
    dropWhile_append_of_pos (all_eq_true.1 hverb), takeWhile_cons_of_neg (by decide),
    dropWhile_cons_of_neg (by decide), append_nil, htrim, drop_succ_cons, drop_zero]

open OpText

/-- A written op line is read back. -/
theorem parseLine_opText (hop : op.Clean ∧ op.verb ∈ sourceVerbs.map (·.1)) (lineNum : Nat)
    (hcurrent : state.current = .topLevel) (hblock : state.currentBlock = none) :
    parseLine lineNum (trim op.line) state =
      .ok { state with parsedOps := state.parsedOps ++ [op.parsed] } := by
  obtain ⟨hclean, hverb⟩ := hop
  have htrim : trim op.line =
      "op ".toList ++ (op.verb.toList ++ ' ' :: argsText op.words op.key (trimEnd op.last)) := by
    have hline : op.line =
        "op ".toList ++ (op.verb.toList ++ ' ' :: argsText op.words op.key []) ++ op.last := by
      rw [line, opLine_eq, argsText_append]
      simp
    rw [hline, trim_append, argsText_append op.words op.key (trimEnd op.last)]
    · simp
    · exact fun h => by cases h
    · intro c hc
      cases hc
      decide
    · intro c hc
      rw [getLast?_append, getLast?_append, getLast?_cons, getLast?_argsFront] at hc
      cases hc
      decide
  have hargs : parseKvArgs (argsText op.words op.key (trimEnd op.last)) =
      op.entries.foldl insertPair [] := by
    rw [parseKvArgs, trim_argsText hclean.words hclean.key, trimEnd_trimEnd,
      kvEntries_argsText hclean.words hclean.key]
    rfl
  rw [htrim, parseLine_op lineNum _ hcurrent hblock, parseOp]
  simp only [sourceVerbs, map_cons, map_nil, mem_cons, not_mem_nil, or_false] at hverb
  rcases hverb with hverb | hverb | hverb | hverb | hverb
  all_goals
    rw [parsed, hverb, splitVerb_append (by decide) (by decide),
      trim_argsText hclean.words hclean.key, trimEnd_trimEnd]
    simp only [hargs]
    rfl

/-- One line after the other. -/
theorem parseLines_opTexts (hops : ∀ op ∈ ops, op.Clean ∧ op.verb ∈ sourceVerbs.map (·.1))
    (rest : List (List Char)) (lineNum : Nat)
    (hcurrent : state.current = .topLevel) (hblock : state.currentBlock = none) :
    parseLines lineNum (ops.map (fun op => trim op.line) ++ rest) state =
      parseLines (lineNum + ops.length) rest
        { state with parsedOps := state.parsedOps ++ ops.map parsed } := by
  induction ops generalizing lineNum state with
  | nil => simp
  | cons op ops ih =>
    rw [map_cons, cons_append, parseLines,
      parseLine_opText (hops op (.head _)) lineNum hcurrent hblock]
    dsimp only
    rw [ih (fun other h => hops other (.tail _ h)) (lineNum + 1) (by exact hcurrent)
      (by exact hblock)]
    simp only [length_cons, map_cons, append_assoc, singleton_append]
    rw [Nat.add_assoc, Nat.add_comm 1]

/-! ## Loaded programs -/

/-- A declaration with a body, and the verb of its line. -/
structure SourceItem where
  verb : String
  name : List Char
  returnType : List Char
  params : List SourceParam
  body : List Char
  deriving DecidableEq

def SourceProgram.sourceItems (program : SourceProgram) : List SourceItem :=
  (program.constants.map fun constant =>
    ⟨"create_function", constant.name, constant.returnType, [], constant.body⟩) ++
  (program.functions.map fun function =>
    ⟨"create_function", function.name, function.returnType, function.params, function.body⟩) ++
  program.tests.map fun test => ⟨"create_test", test.name, test.returnType, [], test.body⟩

/-- What the loader guarantees: names, types and the names in grants are
plain words, the items have distinct names and the parameters of each
have, too. -/
structure LoadedProgram extends SourceProgram where
  plain_capabilities : ∀ capability ∈ capabilities, Plain capability
  plain_items : ∀ item ∈ toSourceProgram.sourceItems, Plain item.name ∧ Plain item.returnType ∧
    ∀ param ∈ item.params, Plain param.name ∧ Plain param.ty
  plain_grants : ∀ grant ∈ grants, Plain grant.target ∧ Plain grant.capability
  names_nodup : (toSourceProgram.sourceItems.map (·.name)).Nodup
  params_nodup : ∀ item ∈ toSourceProgram.sourceItems, (item.params.map (·.name)).Nodup

section Texts

variable (program : SourceProgram)

def capabilityText (capability : List Char) : OpText := ⟨"create_capability", [], "id", capability⟩

def itemText (item : SourceItem) : OpText :=
  ⟨item.verb, [("id", item.name), ("return", item.returnType)], "body", program.aclBody item.body⟩

def paramText (target : List Char) (param : SourceParam) : OpText :=
  ⟨"add_param", [("target", target), ("name", param.name)], "type", param.ty⟩

def grantText (grant : SourceGrant) : OpText :=
  ⟨"grant", [("target", grant.target)], "capability", grant.capability⟩

/-- The lines of an item: itself, then its parameters. -/
def itemTexts (item : SourceItem) : List OpText :=
  itemText program item :: item.params.map (paramText item.name)

def SourceProgram.opTexts : List OpText :=
  program.capabilities.map capabilityText ++ program.sourceItems.flatMap (itemTexts program) ++
    program.grants.map grantText

theorem opLines_eq : program.opLines = program.opTexts.map line := by
  simp only [opLines, opTexts, sourceItems, map_append, flatMap_append, flatMap_map, map_flatMap,
    map_map, itemTexts, map_nil, map_cons, ← map_eq_flatMap, append_assoc]
  rfl

end Texts

variable (loaded : LoadedProgram)

theorem LoadedProgram.mem_opTexts : op ∈ loaded.opTexts ↔
    (∃ capability ∈ loaded.capabilities, op = capabilityText capability) ∨
    (∃ item ∈ loaded.sourceItems, op = itemText loaded.toSourceProgram item) ∨
    (∃ item ∈ loaded.sourceItems, ∃ param ∈ item.params, op = paramText item.name param) ∨
    ∃ grant ∈ loaded.grants, op = grantText grant := by
  simp [opTexts, itemTexts, and_or_left, exists_or, eq_comm, or_assoc]

variable {item : SourceItem}

theorem SourceProgram.verb_of_mem_sourceItems {program : SourceProgram}
    (hitem : item ∈ program.sourceItems) : item.verb = "create_function" ∨
      item.verb = "create_test" := by
  simp only [sourceItems, mem_append, mem_map] at hitem
  rcases hitem with (⟨_, -, rfl⟩ | ⟨_, -, rfl⟩) | ⟨_, -, rfl⟩
  · exact .inl rfl
  · exact .inl rfl
  · exact .inr rfl

/-- The keys of the lines. -/
def sourceKeys : List String := ["id", "return", "body", "target", "name", "type", "capability"]

theorem OpText.Clean.of_keys (hwords : ∀ word ∈ op.words, word.1 ∈ sourceKeys ∧ Plain word.2)
    (hkey : op.key ∈ sourceKeys) : op.Clean := by
  have hclean : ∀ key ∈ sourceKeys, key ≠ "" ∧ Plain key.toList := by decide
  refine ⟨fun word h => ?_, hclean _ hkey⟩
  obtain ⟨hmem, hvalue⟩ := hwords word h
  exact ⟨(hclean _ hmem).1, (hclean _ hmem).2, hvalue⟩

theorem capabilityText_clean (capability : List Char) : (capabilityText capability).Clean :=
  .of_keys (fun word h => by cases h) (.head _)

/-- The lines of a loaded program are well written. -/
theorem LoadedProgram.clean (hop : op ∈ loaded.opTexts) :
    op.Clean ∧ op.verb ∈ sourceVerbs.map (·.1) := by
  rcases loaded.mem_opTexts.1 hop with ⟨capability, hmem, rfl⟩ | ⟨item, hmem, rfl⟩ |
    ⟨item, hmem, param, hparam, rfl⟩ | ⟨grant, hmem, rfl⟩
  · exact ⟨capabilityText_clean capability, .head _⟩
  · obtain ⟨hname, htype, -⟩ := loaded.plain_items item hmem
    refine ⟨.of_keys ?_ (by simp [itemText, sourceKeys]), ?_⟩
    · simp [itemText, sourceKeys, hname, htype]
    · rcases verb_of_mem_sourceItems hmem with hverb | hverb <;>
        simp [itemText, sourceVerbs, hverb]
  · obtain ⟨hname, -, hparams⟩ := loaded.plain_items item hmem
    refine ⟨.of_keys ?_ (by simp [paramText, sourceKeys]), by simp [paramText, sourceVerbs]⟩
    simp [paramText, sourceKeys, hname, (hparams param hparam).1]
  · refine ⟨.of_keys ?_ (by simp [grantText, sourceKeys]), by simp [grantText, sourceVerbs]⟩
    simp [grantText, sourceKeys, (loaded.plain_grants grant hmem).1]

/-- No line of the program has a line break. -/
def LoadedProgram.OneLined : Prop :=
  ∀ item ∈ loaded.sourceItems, '\n' ∉ loaded.aclBody item.body

/-- What is read before the first op. -/
def headerState : AclState :=
  { inChange := true, author := some "ail-source", description := some "AIL source file",
    base := some ⟨0⟩ }

variable {changeName cs : List Char} {graph : SemanticGraph}

theorem parseLine_change (hname : Plain changeName) :
    parseLine 1 (trim ("change ".toList ++ changeName)) {} = .ok { inChange := true } := by
  have hblank : ' ' ∉ changeName := fun h => by
    have := (plain_char (hname ' ' h)).1
    exact absurd this (by decide)
  have hline : ∀ name : List Char, ' ' ∉ name →
      parseLine 1 ("change ".toList ++ name) {} = .ok { inChange := true } := by
    intro name hname
    have hspaces : afterSpaces 2 ("change ".toList ++ name) = none := by
      have hfirst : splitOnce ' ' ("change ".toList ++ name) = some ("change".toList, name) :=
        @splitOnce_append ' ' name "change".toList (by decide)
      simp only [afterSpaces, hfirst, splitOnce_eq_none_iff.2 hname]
    rw [parseLine, if_neg (by simp), openChange, hspaces]
    rfl
  by_cases hne : changeName = []
  · subst hne
    rfl
  · have htrim : trim ("change ".toList ++ changeName) = "change ".toList ++ changeName := by
      refine trim_eq_self (fun c hc => ?_) fun c hc => ?_
      · cases hc
        decide
      · rw [getLast?_append_of_ne_nil _ hne] at hc
        exact (plain_char (hname c (mem_of_getLast? hc))).1
    rw [htrim, hline changeName hblank]

/-- The header is read up to the first op. -/
theorem parseLines_header (hname : Plain changeName) (rest : List (List Char)) :
    parseLines 1 ((aclHeader changeName).map trim ++ rest) {} = parseLines 5 rest headerState := by
  rw [aclHeader, map_cons, cons_append, parseLines, parseLine_change hname]
  rfl

theorem not_mem_break_of_plain {word : List Char} (plain : Plain word) : '\n' ∉ word :=
  fun h => (plain_char (plain _ h)).2.2.2.1 rfl

theorem OpText.Clean.not_mem_break (hclean : op.Clean) (hverb : op.verb ∈ sourceVerbs.map (·.1))
    (hlast : '\n' ∉ op.last) : '\n' ∉ op.line := by
  have hverbs : ∀ verb ∈ sourceVerbs.map (·.1), '\n' ∉ verb.toList := by decide
  have hargs : ∀ arg ∈ op.words ++ [(op.key, op.last)], '\n' ∉ arg.1.toList ∧ '\n' ∉ arg.2 := by
    intro arg harg
    rcases mem_append.1 harg with hword | hlast'
    · obtain ⟨-, hname, hvalue⟩ := hclean.words arg hword
      exact ⟨not_mem_break_of_plain hname, not_mem_break_of_plain hvalue⟩
    · rw [mem_singleton.1 hlast']
      exact ⟨not_mem_break_of_plain hclean.key.2, hlast⟩
  rw [line, opLine]
  generalize op.words ++ [(op.key, op.last)] = args at hargs ⊢
  simp only [mem_append, mem_flatMap, mem_cons, not_or, not_exists, not_and]
  exact ⟨⟨by decide, hverbs op.verb hverb⟩, fun arg harg =>
    ⟨⟨by decide, (hargs arg harg).1⟩, by decide, (hargs arg harg).2⟩⟩

theorem LoadedProgram.last_plain_or_body (hop : op ∈ loaded.opTexts) :
    Plain op.last ∨ ∃ item ∈ loaded.sourceItems, op = itemText loaded.toSourceProgram item := by
  rcases loaded.mem_opTexts.1 hop with ⟨capability, hmem, rfl⟩ | hitem |
    ⟨item, hmem, param, hparam, rfl⟩ | ⟨grant, hmem, rfl⟩
  · exact .inl (loaded.plain_capabilities capability hmem)
  · exact .inr hitem
  · exact .inl ((loaded.plain_items item hmem).2.2 param hparam).2
  · exact .inl (loaded.plain_grants grant hmem).2

/-- No line of the text is broken in two. -/
theorem LoadedProgram.lines_oneLined (hlines : loaded.OneLined) (hname : Plain changeName) :
    ∀ line ∈ aclHeader changeName ++ loaded.opLines ++ ["end".toList], '\n' ∉ line := by
  intro line hline
  rw [opLines_eq] at hline
  simp only [aclHeader, mem_append, mem_cons, not_mem_nil, or_false, mem_map] at hline
  rcases hline with ((rfl | rfl | rfl | rfl) | ⟨op, hop, rfl⟩) | rfl
  · simp only [mem_append, not_or]
    exact ⟨by decide, not_mem_break_of_plain hname⟩
  · decide
  · decide
  · decide
  · obtain ⟨hclean, hverb⟩ := loaded.clean hop
    refine hclean.not_mem_break hverb ?_
    rcases loaded.last_plain_or_body hop with hplain | ⟨item, hitem, rfl⟩
    · exact not_mem_break_of_plain hplain
    · exact hlines item hitem
  · decide

/-- The changeset with the header of a program and the given ops. -/
def programChangeSet (ops : List ParsedOp) : ParsedChangeSet where
  author := "ail-source"
  description := "AIL source file"
  baseSnapshotId := ⟨0⟩
  parsedOps := ops
  preconditions := []
  aclVersion := "1.0"
  opSchemaVersion := none
  graphSchemaVersion := none
  coreIrSchemaVersion := none
  diagnosticsSchemaVersion := none
  verificationSchemaVersion := none
  expect := none
  approval := none
  composition := {}
  blocks := []
  verify := []

/-- The text of a program parses to its ops. -/
theorem parseChangeset_program (hname : Plain changeName) (hlines : loaded.OneLined) :
    parseChangeset (sourceProgramToAcl loaded.toSourceProgram changeName) =
      .ok (programChangeSet (loaded.opTexts.map parsed)) := by
  have hparse : parseLines 1 ((textLines (sourceProgramToAcl loaded.toSourceProgram changeName)).map
      trim) {} = .ok { headerState with
        parsedOps := loaded.opTexts.map parsed, inChange := false } := by
    rw [sourceProgramToAcl, map_trim_textLines (loaded.lines_oneLined hlines hname), map_append,
      map_append, append_assoc, parseLines_header hname, opLines_eq, map_map]
    exact parseLines_opTexts (fun op h => loaded.clean h) _ _ rfl rfl
  rw [parseChangeset, hparse]
  rfl

/-! ## From the ops to the graph -/

variable (tables : CaseTables) (digests : Digests) (nodeHash : GraphNode → BlockHash)

/-- The ops of a program in canonical form: what is created, then the
parameters, then the grants. -/
def sortedTexts (ops : List OpText) : List ParsedOp := sortByPhase (ops.map OpText.parsed)

def programOps (ops : List OpText) : List CanonicalOp :=
  (sortedTexts ops).mapIdx (canonicalOp tables digests)

theorem kind_parsed (hverb : op.verb ∈ sourceVerbs.map (·.1)) :
    op.parsed.kind = .create ∨ op.parsed.kind = .add ∨ op.parsed.kind = .grant := by
  simp only [sourceVerbs, map_cons, map_nil, mem_cons, not_mem_nil, or_false] at hverb
  rcases hverb with hverb | hverb | hverb | hverb | hverb <;> rw [parsed, hverb]
  · exact .inl rfl
  · exact .inl rfl
  · exact .inl rfl
  · exact .inr (.inl rfl)
  · exact .inr (.inr rfl)

/-- There is nothing to infer: the ops are only sorted. -/
theorem canonicalOps_texts (hverbs : ∀ op ∈ ops, op.verb ∈ sourceVerbs.map (·.1)) :
    canonicalOps tables digests (ops.map parsed) = programOps tables digests ops := by
  have hnone : (programOps tables digests ops).filter
      (fun op => op.kind = .infer ∧ op.verb = "infer_boundary") = [] := by
    rw [filter_eq_nil_iff]
    intro op hop
    obtain ⟨idx, hlt, rfl⟩ := mem_mapIdx.1 hop
    have hmem : (sortedTexts ops)[idx] ∈ ops.map parsed := mem_sortByPhase.1 (getElem_mem hlt)
    obtain ⟨text, htext, heq⟩ := mem_map.1 hmem
    have hkind : (sortedTexts ops)[idx].kind ≠ .infer := by
      rw [← heq]
      rcases kind_parsed (hverbs text htext) with h | h | h <;> rw [h] <;> decide
    exact fun h => hkind (of_decide_eq_true h).1
  have hexpand : canonicalOps tables digests (ops.map parsed) =
      programOps tables digests ops ++ ((programOps tables digests ops).filter
        fun op => op.kind = .infer ∧ op.verb = "infer_boundary").foldl
          (expandOne digests (programOps tables digests ops)) [] := rfl
  rw [hexpand, hnone]
  exact append_nil _

theorem sourceProgramToGraph_eq_ok_iff (hname : Plain changeName) (hlines : loaded.OneLined)
    (graph : SemanticGraph) :
    sourceProgramToGraph loaded.toSourceProgram tables digests nodeHash changeName = .ok graph ↔
      applyOps .empty (programOps tables digests loaded.opTexts) = .ok graph := by
  have hcanonical : tryCanonicalizeParsed tables digests
      (programChangeSet (loaded.opTexts.map parsed)) =
      .ok { metadata := ⟨"ail-source", "AIL source file", ⟨0⟩⟩, baseSnapshotId := ⟨0⟩,
            preconditions := [], ops := programOps tables digests loaded.opTexts } := by
    rw [← canonicalOps_texts tables digests fun op h => (loaded.clean h).2]
    rfl
  rw [sourceProgramToGraph, parseChangeset_program loaded hname hlines]
  simp only [hcanonical]
  rw [apply]
  cases applyOps .empty (programOps tables digests loaded.opTexts) with
  | error reason => exact ⟨fun h => (by cases h), fun h => (by cases h)⟩
  | ok graph' => exact ⟨fun h => (by cases h; rfl), fun h => (by cases h; rfl)⟩

/-- The graph is the program: one node for each item, with its text and
its parameters. -/
def LoadedProgram.ReachesGraph (changeName : List Char) : Prop :=
  ∃ graph, sourceProgramToGraph loaded.toSourceProgram tables digests nodeHash changeName =
    .ok graph ∧
    ∀ item ∈ loaded.sourceItems, ∃ node,
      graph.nodes.filter (·.name = String.ofList item.name) = [node] ∧
      node.bodyExpr = some (String.ofList (loaded.aclBody item.body)) ∧
      node.params.getD [] = item.params.map fun param =>
        ⟨String.ofList param.name, String.ofList param.ty⟩

/-! ## Texts that are lost -/

variable {tables digests nodeHash}

/-- The body of an item is a body of the graph. -/
theorem LoadedProgram.body_of_reaches {P : String → Prop} (hbodies : Bodies P graph)
    {node : GraphNode} (hnode : graph.nodes.filter (·.name = .ofList item.name) = [node])
    (hbody : node.bodyExpr = some (.ofList (loaded.aclBody item.body))) :
    P (.ofList (loaded.aclBody item.body)) := by
  have hmem : node ∈ graph.nodes := by
    have : node ∈ graph.nodes.filter (·.name = .ofList item.name) := by
      rw [hnode]
      exact .head _
    exact (mem_filter.1 this).1
  exact hbodies node hmem _ hbody

theorem LoadedProgram.oneLined_of_reaches
    (hreaches : loaded.ReachesGraph tables digests nodeHash changeName) : loaded.OneLined := by
  obtain ⟨graph, hgraph, hitems⟩ := hreaches
  have hbodies : Bodies (fun body => '\n' ∉ body.toList) graph := by
    unfold sourceProgramToGraph at hgraph
    split at hgraph
    next => cases hgraph
    next parsed hparsed =>
      split at hgraph
      next => cases hgraph
      next canonical hcanonical =>
        rcases happly : apply nodeHash ⟨0⟩ canonical .empty with ⟨outcome, graph'⟩
        rw [happly] at hgraph
        cases outcome with
        | applied =>
          cases hgraph
          obtain ⟨-, -, hops⟩ := (apply_eq_applied_iff nodeHash ⟨0⟩ canonical .empty graph).1 happly
          exact applyOps_bodies (fun node hnode => by cases hnode)
            (tryCanonicalizeParsed_bodies tables digests (parseChangeset_oneLine hparsed)
              hcanonical)
            hops
        | _ => cases hgraph
  intro item hitem
  obtain ⟨node, hnode, hbody, -⟩ := hitems item hitem
  have hone := loaded.body_of_reaches hbodies hnode hbody
  rwa [String.toList_ofList] at hone

theorem trimEnd_of_trim {text : List Char} (htrim : trim text = text) : trimEnd text = text := by
  rw [trimEnd, rdropWhile_eq_self_iff]
  intro hne
  have hlast : (trim text).getLast? = some (text.getLast hne) := by
    rw [htrim]
    exact getLast?_eq_some_getLast hne
  simp [getLast?_trim hlast]

/-- The values of the lines: whole texts, or shorter than a text that is
not. -/
theorem LoadedProgram.value_cases (hop : op ∈ loaded.opTexts) {pair : List Char × List Char}
    (hpair : pair ∈ op.entries) :
    Whole pair.2 ∨ ∃ item ∈ loaded.sourceItems, ¬ Whole (loaded.aclBody item.body) ∧
      pair.2.length < (loaded.aclBody item.body).length := by
  obtain ⟨hclean, -⟩ := loaded.clean hop
  rcases mem_append.1 hpair with hword | hlast
  · obtain ⟨word, hmem, rfl⟩ := mem_map.1 hword
    exact .inl (hclean.words word hmem).2.2.whole
  · have hwhole : Whole op.last → Whole pair.2 := by
      intro whole
      rw [trimEnd_of_trim whole.trimmed, kvEntries_whole hclean.key.2 whole] at hlast
      rw [mem_singleton.1 hlast]
      exact whole
    by_cases whole : Whole op.last
    · exact .inl (hwhole whole)
    rcases loaded.last_plain_or_body hop with hplain | ⟨item, hitem, rfl⟩
    · exact absurd hplain.whole whole
    · exact .inr ⟨item, hitem, whole, length_lt_of_not_whole hclean.key.2 whole hlast⟩

/-- Every text is read back as it was written. -/
def LoadedProgram.AllWhole : Prop :=
  ∀ item ∈ loaded.sourceItems, Whole (loaded.aclBody item.body)

open LoadedProgram

/-- A program that arrives was read back whole. -/
theorem LoadedProgram.whole_of_reaches (hname : Plain changeName)
    (hreaches : loaded.ReachesGraph tables digests nodeHash changeName) : loaded.AllWhole := by
  have hlines := loaded.oneLined_of_reaches hreaches
  obtain ⟨graph, hgraph, hitems⟩ := hreaches
  rw [sourceProgramToGraph_eq_ok_iff loaded tables digests nodeHash hname hlines] at hgraph
  have hvalues : Bodies (fun body => Whole body.toList ∨ ∃ item ∈ loaded.sourceItems,
      ¬ Whole (loaded.aclBody item.body) ∧
        body.toList.length < (loaded.aclBody item.body).length) graph := by
    refine applyOps_bodies (fun node hnode => by cases hnode) (fun op hop body hbody => ?_) hgraph
    rw [← canonicalOps_texts tables digests fun op h => (loaded.clean h).2] at hop
    rcases canonicalOps_body tables digests hop hbody with ⟨parsed, hparsed, key, hentry⟩ | hdefault
    · obtain ⟨text, htext, rfl⟩ := mem_map.1 hparsed
      rcases mem_foldl_insertPair hentry with hnone | ⟨pair, hpair, heq⟩
      · cases hnone
      · cases heq
        rw [String.toList_ofList]
        exact loaded.value_cases htext hpair
    · refine .inl (Plain.whole ?_)
      simp only [mem_cons, not_mem_nil, or_false] at hdefault
      rcases hdefault with rfl | rfl | rfl <;> decide
  classical
  by_contra hnot
  simp only [AllWhole, not_forall] at hnot
  obtain ⟨lost, hlost, hnotWhole⟩ := hnot
  -- The longest text that is not whole is longer than every value.
  obtain ⟨item, hitem, hlongest⟩ := Finset.exists_max_image
    (loaded.sourceItems.toFinset.filter fun item => ¬ Whole (loaded.aclBody item.body))
    (fun item => (loaded.aclBody item.body).length)
    ⟨lost, Finset.mem_filter.2 ⟨mem_toFinset.2 hlost, hnotWhole⟩⟩
  obtain ⟨hmem, hitemNot⟩ := Finset.mem_filter.1 hitem
  obtain ⟨node, hnode, hbody, -⟩ := hitems item (mem_toFinset.1 hmem)
  rcases loaded.body_of_reaches hvalues hnode hbody with whole | ⟨other, hother, hotherNot, hlt⟩
  · rw [String.toList_ofList] at whole
    exact hitemNot whole
  · rw [String.toList_ofList] at hlt
    have hle := hlongest other (Finset.mem_filter.2 ⟨mem_toFinset.2 hother, hotherNot⟩)
    exact absurd hlt (Nat.not_lt.2 hle)

/-! ## What the ops do when every text is whole -/

variable (tables)

/-- A name as it stands in the graph. -/
def nodeName (name : List Char) : String := String.ofList (normalizeId tables name)

theorem payload_eq (idx : Nat) (op : ParsedOp) :
    (canonicalOp tables digests idx op).payload =
      materializePayload digests idx op.kind op.verb (canonicalArgs tables op) := rfl

/-- An argument in canonical form: a name is normalized, a value stays. -/
theorem lookup_parsed (hclean : op.Clean) (whole : Whole op.last) (key : String)
    {value : List Char} (hkey : key ∉ "" :: defaultKeys)
    (hlookup : (op.words ++ [(op.key, op.last)]).reverse.lookup key = some value) :
    (canonicalArgs tables op.parsed).lookup key =
      some (if key ∈ idArgKeys then nodeName tables value else .ofList value) := by
  obtain ⟨hne, hdefault⟩ := not_or.1 (mt mem_cons.2 hkey)
  have hwords : ∀ words : List (String × List Char),
      ((words.map fun word => (word.1.toList, word.2)).foldl insertPair []).lookup key =
        (words.reverse.lookup key).map .ofList := by
    intro words
    induction words using reverseRecOn with
    | nil => rfl
    | append_singleton words word ih =>
      obtain ⟨name, value⟩ := word
      by_cases heq : key = name
      · simp [insertPair, lookup_insertArg, ← heq, hne]
      · rw [reverse_append, reverse_singleton, singleton_append, lookup_cons, beq_false_of_ne heq]
        by_cases hempty : name = "" <;> simp [insertPair, lookup_insertArg, *]
  have hentries : (op.entries.foldl insertPair []).lookup key = some (.ofList value) := by
    rw [entries, trimEnd_of_trim whole.trimmed, kvEntries_whole hclean.key.2 whole]
    have hall := hwords (op.words ++ [(op.key, op.last)])
    rwa [hlookup, map_append] at hall
  rw [lookup_canonicalArgs tables op.parsed hdefault, lookup_normalizeOpArgs, parsed, hentries,
    Option.map_some, String.toList_ofList]
  split <;> rfl

variable {tables}

/-- The parameters of all items, each with its item. -/
def LoadedProgram.paramPairs : List (SourceItem × SourceParam) :=
  loaded.sourceItems.flatMap fun item => item.params.map fun param => (item, param)

theorem LoadedProgram.mem_paramPairs {pair : SourceItem × SourceParam}
    (hpair : pair ∈ loaded.paramPairs) : pair.1 ∈ loaded.sourceItems ∧ pair.2 ∈ pair.1.params := by
  obtain ⟨item, hitem, hmem⟩ := mem_flatMap.1 hpair
  obtain ⟨param, hparam, rfl⟩ := mem_map.1 hmem
  exact ⟨hitem, hparam⟩

/-- A capability's op creates its node. -/
theorem payload_capability {capability : List Char} (hcapability : capability ∈ loaded.capabilities)
    (idx : Nat) :
    (canonicalOp tables digests idx (capabilityText capability).parsed).payload =
      .createNode (capabilityNode idx (nodeName tables capability)) := by
  rw [payload_eq]
  change orNoop ((List.lookup "id" _).map _) = _
  rw [lookup_parsed tables (capabilityText_clean capability)
    (loaded.plain_capabilities _ hcapability).whole "id" (by decide) rfl]
  rfl

/-- The node of an item: its name, its text, no parameters yet. -/
theorem payload_item (hwhole : loaded.AllWhole) (hitem : item ∈ loaded.sourceItems) (idx : Nat) :
    ∃ node, (canonicalOp tables digests idx (itemText loaded.toSourceProgram item).parsed).payload =
        .createNode node ∧ node.id = nodeAt idx ∧ node.name = nodeName tables item.name ∧
      node.bodyExpr = some (.ofList (loaded.aclBody item.body)) ∧ node.params = none := by
  obtain ⟨hclean, -⟩ := loaded.clean (loaded.mem_opTexts.2 (.inr (.inl ⟨item, hitem, rfl⟩)))
  have hid := lookup_parsed tables hclean (hwhole item hitem) "id" (by decide) rfl
  have hbody := lookup_parsed tables hclean (hwhole item hitem) "body" (by decide) rfl
  generalize hargs : canonicalArgs tables (itemText loaded.toSourceProgram item).parsed =
    args at hid hbody
  rw [payload_eq, hargs]
  rcases verb_of_mem_sourceItems hitem with hverb | hverb <;>
    simp only [itemText, hverb] <;>
    change ∃ node, orNoop ((args.lookup "id").map _) = .createNode node ∧ _ <;>
    rw [hid]
  · exact ⟨functionNode digests idx _ args, rfl, rfl, rfl, hbody, rfl⟩
  · exact ⟨testNode idx _ args, rfl, rfl, rfl, hbody, rfl⟩

/-- A parameter's op adds it to its item. -/
theorem payload_param {pair : SourceItem × SourceParam} (hpair : pair ∈ loaded.paramPairs)
    (idx : Nat) :
    (canonicalOp tables digests idx (paramText pair.1.name pair.2).parsed).payload =
      .addParamByName (nodeName tables pair.1.name) (.ofList pair.2.name)
        (.ofList pair.2.ty) := by
  obtain ⟨hitem, hparam⟩ := loaded.mem_paramPairs hpair
  obtain ⟨hclean, -⟩ := loaded.clean
    (loaded.mem_opTexts.2 (.inr (.inr (.inl ⟨_, hitem, _, hparam, rfl⟩))))
  have hlookup := lookup_parsed tables hclean ((loaded.plain_items _ hitem).2.2 _ hparam).2.whole
  rw [payload_eq]
  change addPayload "add_param" _ = _
  simp only [addPayload, hlookup "target" (by decide) rfl, hlookup "name" (by decide) rfl,
    hlookup "type" (by decide) rfl]
  rfl

/-- A grant's op requires the capability of its target. -/
theorem payload_grant {grant : SourceGrant} (hgrant : grant ∈ loaded.grants) (idx : Nat) :
    (canonicalOp tables digests idx (grantText grant).parsed).payload =
      .addCapabilityReqByName (nodeName tables grant.target) (.ofList grant.capability) := by
  obtain ⟨hclean, -⟩ := loaded.clean
    (loaded.mem_opTexts.2 (.inr (.inr (.inr ⟨grant, hgrant, rfl⟩))))
  have hlookup := lookup_parsed tables hclean (loaded.plain_grants grant hgrant).2.whole
  rw [payload_eq]
  change orNoop ((targetAnd _ "capability").map _) = _
  simp only [targetAnd, hlookup "target" (by decide) rfl, hlookup "capability" (by decide) rfl]
  rfl

/-! ## The order of the ops -/

/-- Ops of one phase are kept or dropped together. -/
theorem filter_phase {own : Nat} (hphase : ∀ op ∈ ops, phaseOrder op.parsed.kind = own)
    (phase : Nat) :
    (ops.map parsed).filter (phaseOrder ·.kind = phase) =
      if own = phase then ops.map parsed else [] := by
  have hsame : ops.filter ((fun op : ParsedOp => decide (phaseOrder op.kind = phase)) ∘
      parsed) = ops.filter fun _ => own = phase :=
    filter_congr fun op hop => by rw [← hphase op hop]; rfl
  rw [filter_map]
  split <;> simp [*]

theorem phase_itemText (program : SourceProgram)
    (hverb : item.verb = "create_function" ∨ item.verb = "create_test") :
    phaseOrder (itemText program item).parsed.kind = 0 := by
  rcases hverb with hverb | hverb <;> simp only [itemText, hverb] <;> rfl

theorem filter_itemTexts (program : SourceProgram) (items : List SourceItem)
    (hverbs : ∀ item ∈ items, item.verb = "create_function" ∨ item.verb = "create_test")
    (phase : Nat) :
    ((items.flatMap (itemTexts program)).map parsed).filter (phaseOrder ·.kind = phase) =
      (if 0 = phase then (items.map (itemText program)).map parsed else []) ++
      if 1 = phase then
        (items.flatMap fun item => item.params.map (paramText item.name)).map parsed
      else [] := by
  induction items with
  | nil => simp
  | cons item items ih =>
    have hitem := @filter_phase [itemText program item] 0 (fun op hop => by
      rw [mem_singleton.1 hop]
      exact phase_itemText program (hverbs item (.head _))) phase
    have hparams := @filter_phase (item.params.map (paramText item.name)) 1 (fun op hop => by
      obtain ⟨param, -, rfl⟩ := mem_map.1 hop
      rfl) phase
    have hsplit : ((item :: items).flatMap (itemTexts program)).map parsed =
        [itemText program item].map parsed ++
          ((item.params.map (paramText item.name)).map parsed ++
            (items.flatMap (itemTexts program)).map parsed) := by
      rw [flatMap_cons, map_append, map_cons]
      rfl
    rw [hsplit, filter_append, filter_append, hitem, hparams,
      ih fun other h => hverbs other (.tail _ h)]
    by_cases h0 : 0 = phase
    · subst h0
      simp
    · by_cases h1 : 1 = phase
      · subst h1
        simp
      · simp [h0, h1]

/-- What the program creates, and the parameters it adds. -/
def LoadedProgram.creates : List OpText :=
  loaded.capabilities.map capabilityText ++ loaded.sourceItems.map (itemText loaded.toSourceProgram)

def LoadedProgram.paramTexts : List OpText :=
  loaded.sourceItems.flatMap fun item => item.params.map (paramText item.name)

/-- Sorted by phase: nodes, then parameters, then grants. -/
theorem sortedTexts_program :
    sortedTexts loaded.opTexts =
      (loaded.creates ++ (loaded.paramTexts ++ loaded.grants.map grantText)).map parsed := by
  have hcapabilities := @filter_phase (loaded.capabilities.map capabilityText) 0 fun op hop => by
    obtain ⟨capability, -, rfl⟩ := mem_map.1 hop
    rfl
  have hgrants := @filter_phase (loaded.grants.map grantText) 2 fun op hop => by
    obtain ⟨grant, -, rfl⟩ := mem_map.1 hop
    rfl
  have hitems := filter_itemTexts loaded.toSourceProgram loaded.sourceItems
    fun item h => verb_of_mem_sourceItems h
  have hbuckets : sortedTexts loaded.opTexts =
      buckets (fun op : ParsedOp => phaseOrder op.kind) 5 (loaded.opTexts.map parsed) := by
    refine insertionSort_eq_buckets (fun op : ParsedOp => phaseOrder op.kind) fun op _ => ?_
    cases op.kind <;> decide
  rw [hbuckets, buckets, opTexts, map_append, map_append]
  simp only [filter_append, hcapabilities, hitems, hgrants, List.range, List.range.loop, creates,
    paramTexts]
  simp

/-! ## Runs of creations and additions -/

/-- The body and the parameters of the nodes with a name. -/
def view (name : String) (graph : SemanticGraph) : List (Option String × List ParamDecl) :=
  (graph.nodes.filter (·.name = name)).map fun node => (node.bodyExpr, node.params.getD [])

def pushParam (params : List ParamDecl) (param : ParamDecl) : List ParamDecl :=
  if params.any (·.name = param.name) then params else params ++ [param]

/-- The payloads of a program: what they do to the refs and to a view. -/
inductive Simple : OpPayload → Prop where
  | create (node : GraphNode) (hparams : node.params = none) : Simple (.createNode node)
  | param (target name ty : String) : Simple (.addParamByName target name ty)
  | grant (target capability : String) : Simple (.addCapabilityReqByName target capability)

def createdRef : OpPayload → Option NodeRef
  | .createNode node => some node.id
  | _ => none

def viewStep (name : String) (payload : OpPayload) (nodes : List (Option String × List ParamDecl)) :
    List (Option String × List ParamDecl) :=
  match payload with
  | .createNode node => if node.name = name then nodes ++ [(node.bodyExpr, [])] else nodes
  | .addParamByName target param ty =>
    if target = name then nodes.modifyHead fun node => (node.1, pushParam node.2 ⟨param, ty⟩)
    else nodes
  | _ => nodes

/-- One step: a ref is added where a node is created. -/
theorem refs_simple (hsimple : Simple payload) (graph : SemanticGraph) :
    (applyPayload payload graph).refs = graph.refs ++ (createdRef payload).toList := by
  cases hsimple with
  | create node _ => simp [applyPayload, SemanticGraph.refs, createdRef]
  | param target name ty =>
    rw [applyPayload, refs_nodeByNameMut graph target (addParam name ty) fun _ => rfl]
    exact (append_nil _).symm
  | grant target capability =>
    rw [applyPayload, refs_nodeByNameMut graph target (addCapabilityReq capability) fun _ => rfl]
    exact (append_nil _).symm

variable {ops : List CanonicalOp}

/-- A run succeeds exactly if the created refs are all new. -/
theorem applyOps_simple_iff (hsimple : ∀ op ∈ ops, Simple op.payload) (valid : graph.Valid) :
    (∃ graph', applyOps graph ops = .ok graph') ↔
      (graph.refs ++ ops.filterMap fun op => createdRef op.payload).Nodup := by
  induction ops generalizing graph with
  | nil =>
    rw [filterMap_nil, append_nil]
    exact iff_of_true ⟨graph, rfl⟩ valid.nodup
  | cons op ops ih =>
    have hop := hsimple op (.head _)
    have hrefs : graph.refs ++ (op :: ops).filterMap (fun op => createdRef op.payload) =
        (applyPayload op.payload graph).refs ++ ops.filterMap fun op => createdRef op.payload := by
      rw [refs_simple hop]
      cases hcreated : createdRef op.payload <;> simp [hcreated]
    rcases applyOps_cons_of_valid valid op ops with ⟨hoffends, reason, herror⟩ | ⟨-, hvalid, hstep⟩
    · rw [herror]
      refine iff_of_false (fun ⟨_, h⟩ => by cases h) fun hnodup => ?_
      cases hpayload : op.payload with
      | createNode node =>
        rw [hpayload] at hoffends
        rw [filterMap_cons_some (by rw [hpayload]; rfl)] at hnodup
        exact (nodup_append.1 hnodup).2.2 node.id hoffends node.id (.head _) rfl
      | addEdge edge =>
        rw [hpayload] at hop
        cases hop
      | _ =>
        rw [hpayload] at hoffends
        cases hoffends
    · rw [hstep, hrefs]
      exact ih (fun other h => hsimple other (.tail _ h)) hvalid

theorem filter_replaceF {target name : String} {update : GraphNode → GraphNode}
    (hupdate : ∀ node, (update node).name = node.name) (nodes : List GraphNode) :
    (nodes.replaceF fun node => if node.name = target then some (update node) else none).filter
        (·.name = name) =
      if target = name then (nodes.filter (·.name = name)).modifyHead update
      else nodes.filter (·.name = name) := by
  induction nodes with
  | nil => simp
  | cons node nodes ih =>
    by_cases hnode : node.name = target
    · rw [replaceF_cons_of_some _ (by rw [if_pos hnode])]
      by_cases hname : target = name
      · rw [if_pos hname, filter_cons_of_pos (by simp [hupdate, hnode, hname]),
          filter_cons_of_pos (by simp [hnode, hname])]
        rfl
      · rw [if_neg hname, filter_cons_of_neg (by simp [hupdate, hnode, hname]),
          filter_cons_of_neg (by simp [hnode, hname])]
    · rw [replaceF_cons_of_none _ (by rw [if_neg hnode])]
      by_cases hname : node.name = name
      · have hne : target ≠ name := fun h => hnode (hname.trans h.symm)
        rw [if_neg hne] at ih ⊢
        rw [filter_cons_of_pos (by simp [hname]), filter_cons_of_pos (by simp [hname]), ih]
      · rw [filter_cons_of_neg (by simp [hname]), filter_cons_of_neg (by simp [hname]), ih]

/-- One step, as the nodes of one name see it. -/
theorem view_simple (hsimple : Simple payload) (name : String) (graph : SemanticGraph) :
    view name (applyPayload payload graph) = viewStep name payload (view name graph) := by
  cases hsimple with
  | create node hparams =>
    rw [view, viewStep, applyPayload, filter_append]
    by_cases hname : node.name = name
    · simp [view, hname, hparams]
    · simp [view, hname]
  | param target param ty =>
    have hfilter := @filter_replaceF target name (addParam param ty) (fun _ => rfl) graph.nodes
    rw [view, applyPayload, nodeByNameMut, viewStep]
    simp only [hfilter]
    split
    · rw [view]
      cases graph.nodes.filter (·.name = name) <;> rfl
    · rfl
  | grant target capability =>
    have hfilter := @filter_replaceF target name (addCapabilityReq capability)
      (fun _ => rfl) graph.nodes
    rw [view, applyPayload, nodeByNameMut]
    simp only [hfilter]
    split
    · rw [view]
      cases graph.nodes.filter (·.name = name) <;> rfl
    · rfl

/-- A whole run, as the nodes of one name see it. -/
theorem view_run (hsimple : ∀ op ∈ ops, Simple op.payload) (name : String) (graph : SemanticGraph) :
    view name (ops.foldl (fun running op => applyPayload op.payload running) graph) =
      ops.foldl (fun nodes op => viewStep name op.payload nodes) (view name graph) := by
  induction ops generalizing graph with
  | nil => rfl
  | cons op ops ih =>
    rw [foldl_cons, foldl_cons, ih fun other h => hsimple other (mem_cons_of_mem _ h),
      view_simple (hsimple op (.head _))]

section Folds

variable {γ : Type} (name : String) (nodes : List (Option String × List ParamDecl)) {texts : List γ}

variable {f : Nat → γ → CanonicalOp}

theorem view_creates (made : γ → String × Option String)
    (hmade : ∀ text ∈ texts, ∀ idx, ∃ node, (f idx text).payload = .createNode node ∧
      node.name = (made text).1 ∧ node.bodyExpr = (made text).2) :
    (texts.mapIdx f).foldl (fun nodes op => viewStep name op.payload nodes) nodes =
      nodes ++ ((texts.map made).filter (·.1 = name)).map fun one => (one.2, []) := by
  induction texts generalizing nodes f with
  | nil => simp
  | cons text texts ih =>
    obtain ⟨node, hpayload, hname, hbody⟩ := hmade text (.head _) 0
    rw [mapIdx_cons, foldl_cons, ih _ fun other h idx => hmade other (.tail _ h) (idx + 1),
      hpayload, viewStep, hname, hbody, map_cons]
    by_cases hsame : (made text).1 = name
    · rw [if_pos hsame, filter_cons_of_pos (by simp [hsame]), append_assoc]
      rfl
    · rw [if_neg hsame, filter_cons_of_neg (by simp [hsame])]

theorem view_params (added : γ → String × ParamDecl)
    (hadded : ∀ text ∈ texts, ∀ idx, (f idx text).payload =
      .addParamByName (added text).1 (added text).2.name (added text).2.ty) :
    (texts.mapIdx f).foldl (fun nodes op => viewStep name op.payload nodes) nodes =
      nodes.modifyHead fun node =>
        (node.1, (((texts.map added).filter (·.1 = name)).map (·.2)).foldl pushParam node.2) := by
  induction texts generalizing nodes f with
  | nil => cases nodes <;> rfl
  | cons text texts ih =>
    rw [mapIdx_cons, foldl_cons, ih _ fun other h idx => hadded other (.tail _ h) (idx + 1),
      hadded text (.head _) 0, viewStep, map_cons]
    by_cases hsame : (added text).1 = name
    · rw [if_pos hsame, filter_cons_of_pos (by simp [hsame])]
      cases nodes <;> rfl
    · rw [if_neg hsame, filter_cons_of_neg (by simp [hsame])]

theorem view_grants (hgrants : ∀ text ∈ texts, ∀ idx, ∃ target capability,
      (f idx text).payload = .addCapabilityReqByName target capability) :
    (texts.mapIdx f).foldl (fun nodes op => viewStep name op.payload nodes) nodes = nodes := by
  induction texts generalizing f with
  | nil => rfl
  | cons text texts ih =>
    obtain ⟨target, capability, hpayload⟩ := hgrants text (.head _) 0
    rw [mapIdx_cons, foldl_cons, hpayload]
    exact ih fun other h idx => hgrants other (.tail _ h) (idx + 1)

end Folds

variable (tables) in
/-- The names that are created, each with its body. -/
def LoadedProgram.made : List (String × Option String) :=
  (loaded.capabilities.map fun capability => (nodeName tables capability, none)) ++
    loaded.sourceItems.map fun item =>
      (nodeName tables item.name, some (String.ofList (loaded.aclBody item.body)))

def paramDecl (param : SourceParam) : ParamDecl :=
  ⟨String.ofList param.name, String.ofList param.ty⟩

theorem LoadedProgram.paramTexts_eq :
    loaded.paramTexts = loaded.paramPairs.map fun pair => paramText pair.1.name pair.2 := by
  simp [paramTexts, paramPairs, map_flatMap, Function.comp_def]

variable (tables) in
/-- The parameters that are added, each with the name it is added to. -/
def LoadedProgram.added : List (String × ParamDecl) :=
  loaded.paramPairs.map fun pair => (nodeName tables pair.1.name, paramDecl pair.2)

theorem mapIdx_map_eq {α β γ : Type} (g : α → β) (f : Nat → β → γ) (values : List α) :
    (values.map g).mapIdx f = values.mapIdx fun idx value => f idx (g value) := by
  induction values generalizing f with
  | nil => rfl
  | cons value values ih => rw [map_cons, mapIdx_cons, mapIdx_cons, ih]

/-- The ops of the program, part by part. -/
theorem programOps_eq : programOps tables digests loaded.opTexts =
    (loaded.capabilities.mapIdx fun idx capability =>
      canonicalOp tables digests idx (capabilityText capability).parsed) ++
    ((loaded.sourceItems.mapIdx fun idx item =>
      canonicalOp tables digests (idx + loaded.capabilities.length)
        (itemText loaded.toSourceProgram item).parsed) ++
    ((loaded.paramPairs.mapIdx fun idx pair =>
      canonicalOp tables digests (idx + (loaded.sourceItems.length + loaded.capabilities.length))
        (paramText pair.1.name pair.2).parsed) ++
    loaded.grants.mapIdx fun idx grant =>
      canonicalOp tables digests (idx + (loaded.paramPairs.length +
        (loaded.sourceItems.length + loaded.capabilities.length))) (grantText grant).parsed)) := by
  rw [programOps, sortedTexts_program, loaded.paramTexts_eq]
  simp [creates, mapIdx_append, mapIdx_map_eq, Nat.add_assoc]

theorem LoadedProgram.simple (hwhole : loaded.AllWhole) :
    ∀ op ∈ programOps tables digests loaded.opTexts, Simple op.payload := by
  intro op hop
  simp only [programOps_eq, mem_append, mem_mapIdx] at hop
  rcases hop with ⟨idx, hlt, rfl⟩ | ⟨idx, hlt, rfl⟩ | ⟨idx, hlt, rfl⟩ | ⟨idx, hlt, rfl⟩
  · rw [payload_capability loaded (getElem_mem hlt)]
    exact .create _ rfl
  · obtain ⟨node, hpayload, -, -, -, hparams⟩ := payload_item loaded hwhole
      (getElem_mem hlt) (idx + loaded.capabilities.length)
    rw [hpayload]
    exact .create node hparams
  · rw [payload_param loaded (getElem_mem hlt)]
    exact .param _ _ _
  · rw [payload_grant loaded (getElem_mem hlt)]
    exact .grant _ _

theorem filterMap_mapIdx {γ : Type} {texts : List γ} {f : Nat → γ → CanonicalOp} {start : Nat}
    (hcreated : ∀ text ∈ texts, ∀ idx, createdRef (f idx text).payload =
      some (nodeAt (start + idx))) :
    (texts.mapIdx f).filterMap (fun op => createdRef op.payload) =
      (List.range' start texts.length).map nodeAt := by
  induction texts generalizing f start with
  | nil => rfl
  | cons text texts ih =>
    have hrest : ∀ other ∈ texts, ∀ idx,
        createdRef (f (idx + 1) other).payload = some (nodeAt (start + 1 + idx)) := by
      intro other h idx
      rw [hcreated other (mem_cons_of_mem _ h) (idx + 1), Nat.add_comm idx, Nat.add_assoc]
    rw [mapIdx_cons, filterMap_cons, hcreated text mem_cons_self 0, ih hrest]
    rfl

theorem filterMap_mapIdx_none {γ : Type} {texts : List γ} {f : Nat → γ → CanonicalOp}
    (hcreated : ∀ text ∈ texts, ∀ idx, createdRef (f idx text).payload = none) :
    (texts.mapIdx f).filterMap (fun op => createdRef op.payload) = [] := by
  rw [filterMap_eq_nil_iff]
  intro op hop
  obtain ⟨idx, hlt, rfl⟩ := mem_mapIdx.1 hop
  exact hcreated _ (getElem_mem hlt) idx

/-- The refs that are created are the first ones. -/
theorem LoadedProgram.createdRefs (hwhole : loaded.AllWhole) :
    (programOps tables digests loaded.opTexts).filterMap (fun op => createdRef op.payload) =
      (List.range (loaded.capabilities.length + loaded.sourceItems.length)).map nodeAt := by
  rw [programOps_eq, filterMap_append, filterMap_append, filterMap_append,
    @filterMap_mapIdx _ loaded.capabilities _ 0, @filterMap_mapIdx _ loaded.sourceItems _
      loaded.capabilities.length, filterMap_mapIdx_none, filterMap_mapIdx_none, append_nil,
    append_nil, ← map_append, range_eq_range', ← range'_append_1, Nat.zero_add]
  · intro grant hgrant idx
    rw [payload_grant loaded hgrant]
    rfl
  · intro pair hpair idx
    rw [payload_param loaded hpair]
    rfl
  · intro item hitem idx
    obtain ⟨node, hpayload, hid, -⟩ := payload_item loaded hwhole hitem
      (idx + loaded.capabilities.length)
    rw [hpayload, createdRef, hid, Nat.add_comm]
  · intro capability hcapability idx
    rw [payload_capability loaded hcapability, Nat.zero_add]
    rfl

/-- The graph of a program whose texts are whole, seen by name. -/
theorem LoadedProgram.view_program (hwhole : loaded.AllWhole)
    (hgraph : applyOps .empty (programOps tables digests loaded.opTexts) = .ok graph)
    (name : String) :
    view name graph =
      (((loaded.made tables).filter (·.1 = name)).map fun one => (one.2, [])).modifyHead fun node =>
        (node.1, (((loaded.added tables).filter (·.1 = name)).map (·.2)).foldl pushParam
          node.2) := by
  rw [applyOps_eq_foldl hgraph, view_run (loaded.simple hwhole), programOps_eq,
    foldl_append, foldl_append, foldl_append,
    view_creates name _ fun capability => (nodeName tables capability, none),
    view_creates name _ fun item : SourceItem =>
      (nodeName tables item.name, some (.ofList (loaded.aclBody item.body))),
    view_params name _ fun pair : SourceItem × SourceParam =>
      (nodeName tables pair.1.name, paramDecl pair.2),
    view_grants]
  · rw [made, filter_append, map_append]
    rfl
  · exact fun grant hgrant idx => ⟨_, _, payload_grant loaded hgrant _⟩
  · exact fun pair hpair idx => payload_param loaded hpair _
  · intro item hitem idx
    obtain ⟨node, hpayload, -, hname, hbody, -⟩ := payload_item loaded hwhole
      hitem (idx + loaded.capabilities.length)
    exact ⟨node, hpayload, hname, hbody⟩
  · exact fun capability hcapability idx => ⟨_, payload_capability loaded hcapability idx, rfl, rfl⟩

/-! ## Normalized names -/

/-- An ASCII character that is no upper-case letter. -/
def Lowered (c : Char) : Prop := c.toNat < 128 ∧ c.isUpper = false

theorem lowered_toLower (hc : c.toNat < 128) : Lowered c.toLower :=
  forall_ascii (P := fun c => Lowered c.toLower) (by unfold Lowered; decide +kernel) hc

theorem toLower_of_lowered (hc : Lowered c) : c.toLower = c := by
  have hall : c.isUpper = true ∨ c.toLower = c :=
    forall_ascii (P := fun c => c.isUpper = true ∨ c.toLower = c) (by decide +kernel) hc.1
  exact hall.resolve_left (by rw [hc.2]; exact Bool.false_ne_true)

theorem toLower_ne_dot (hc : c.toNat < 128) (hne : c ≠ '.') : c.toLower ≠ '.' := by
  have hall : c = '.' ∨ c.toLower ≠ '.' :=
    forall_ascii (P := fun c => c = '.' ∨ c.toLower ≠ '.') (by decide +kernel) hc
  exact hall.resolve_left hne

/-- Snake case is stable. -/
theorem kebabToSnake_idem (cs : List Char) : kebabToSnake (kebabToSnake cs) = kebabToSnake cs := by
  rw [kebabToSnake, kebabToSnake, map_map]
  refine map_congr_left fun c _ => ?_
  by_cases h : c = '-' <;> simp [h]

theorem lowered_kebabToSnake (hcs : ∀ c ∈ cs, Lowered c) : ∀ c ∈ kebabToSnake cs, Lowered c := by
  intro c hc
  obtain ⟨d, hd, rfl⟩ := mem_map.1 hc
  split
  · exact ⟨by decide, by decide⟩
  · exact hcs d hd

theorem lowered_pascalToSnake (hcs : ∀ c ∈ cs, c.toNat < 128) :
    ∀ c ∈ pascalToSnake tables cs, Lowered c := by
  cases cs with
  | nil => exact fun c hc => by cases hc
  | cons first cs =>
    intro c hc
    rw [pascalToSnake, tables.charLower_ascii first (hcs first mem_cons_self)] at hc
    rcases mem_append.1 hc with hc | hc
    · rw [mem_singleton.1 hc]
      exact lowered_toLower (hcs first (.head _))
    · obtain ⟨d, hd, hc⟩ := mem_flatMap.1 hc
      have hascii := hcs d (.tail _ hd)
      rw [tables.charLower_ascii d hascii] at hc
      split at hc
      · rcases mem_cons.1 hc with rfl | hc
        · exact ⟨by decide, by decide⟩
        · rw [mem_singleton.1 hc]
          exact lowered_toLower hascii
      · rw [mem_singleton.1 hc]
        exact lowered_toLower hascii

theorem pascalToSnake_of_lowered (hcs : ∀ c ∈ cs, Lowered c) : pascalToSnake tables cs = cs := by
  have htail : ∀ rest : List Char, (∀ c ∈ rest, Lowered c) → snakeTail tables rest = rest := by
    intro rest hrest
    induction rest with
    | nil => rfl
    | cons c rest ih =>
      have hc := hrest c (.head _)
      rw [snakeTail, flatMap_cons, ← snakeTail, ih fun d hd => hrest d (.tail _ hd),
        tables.isUppercase_ascii c hc.1, hc.2, tables.charLower_ascii c hc.1, toLower_of_lowered hc]
      rfl
  cases cs with
  | nil => rfl
  | cons c cs =>
    have hc := hcs c (.head _)
    rw [pascalToSnake, tables.charLower_ascii c hc.1, toLower_of_lowered hc,
      htail cs fun d hd => hcs d (.tail _ hd)]
    rfl

/-- A normalized name stays as it is. -/
theorem normalizeId_idem {id : List Char} (hid : ∀ c ∈ id, c.toNat < 128) :
    normalizeId tables (normalizeId tables id) = normalizeId tables id := by
  cases hsplit : splitOnce '.' id with
  | none =>
    have hsame : normalizeId tables id = id := by simp [normalizeId, hsplit]
    rw [hsame, hsame]
  | some parts =>
    obtain ⟨ns, loc⟩ := parts
    have heq := (splitOnce_parts hsplit).1
    have hns : ∀ c ∈ ns, c.toNat < 128 := fun c hc => hid c
      (by rw [heq]; exact mem_append_left _ hc)
    have hloc : ∀ c ∈ loc, c.toNat < 128 := fun c hc =>
      hid c (by rw [heq]; exact mem_append_right _ (.tail _ hc))
    have hdot := (splitOnce_parts hsplit).2
    have hlower := tables.textLower_ascii ns hns
    have hlowered : ∀ c ∈ ns.map Char.toLower, Lowered c := by
      intro c hc
      obtain ⟨d, hd, rfl⟩ := mem_map.1 hc
      exact lowered_toLower (hns d hd)
    have hnodot : '.' ∉ ns.map Char.toLower := by
      intro hmem
      obtain ⟨d, hd, heq⟩ := mem_map.1 hmem
      exact toLower_ne_dot (hns d hd) (fun h => hdot (h ▸ hd)) heq
    have hagain : tables.textLower (ns.map Char.toLower) = ns.map Char.toLower := by
      rw [tables.textLower_ascii _ fun c hc => (hlowered c hc).1]
      conv_rhs => rw [← List.map_id (ns.map Char.toLower)]
      exact map_congr_left fun c hc => toLower_of_lowered (hlowered c hc)
    simp only [normalizeId, hsplit, hlower, splitOnce_append _ hnodot, hagain]
    congr 2
    split
    · exact kebabToSnake_idem loc
    · rw [pascalToSnake_of_lowered
        (lowered_kebabToSnake (lowered_pascalToSnake hloc)), kebabToSnake_idem]

/-! ## The graph of a program -/

/-- In a list without duplicate keys, a key picks one element. -/
theorem filter_key_eq {α β : Type} [DecidableEq β] {key : α → β} {values : List α} {value : α}
    (hnodup : (values.map key).Nodup) (hvalue : value ∈ values) :
    values.filter (fun other => key other = key value) = [value] := by
  obtain ⟨before, after, rfl⟩ := append_of_mem hvalue
  rw [map_append, map_cons, nodup_middle, ← map_append, nodup_cons] at hnodup
  have hnone : (before ++ after).filter (fun other => key other = key value) = [] := by
    rw [filter_eq_nil_iff]
    intro other hother heq
    exact hnodup.1 (of_decide_eq_true heq ▸ mem_map_of_mem hother)
  rw [filter_append, append_eq_nil_iff] at hnone
  simp [hnone.1, hnone.2]

/-- Parameters of distinct names are all kept. -/
theorem foldl_pushParam {params kept : List ParamDecl}
    (hnodup : ((kept ++ params).map (·.name)).Nodup) :
    params.foldl pushParam kept = kept ++ params := by
  induction params generalizing kept with
  | nil => rw [append_nil]; rfl
  | cons param params ih =>
    have hnew : kept.any (·.name = param.name) = false := by
      rw [any_eq_false]
      intro other hother heq
      rw [map_append, nodup_append] at hnodup
      exact hnodup.2.2 _ (mem_map_of_mem hother) _ (.head _) (of_decide_eq_true heq)
    have hpush : pushParam kept param = kept ++ [param] := by
      rw [pushParam, hnew]
      rfl
    rw [foldl_cons, hpush, ih (by rwa [append_assoc]), append_assoc]
    rfl

/-- The nodes are as many as there are refs. -/
theorem nodup_nodeAt_iff (count : Nat) :
    ((List.range count).map nodeAt).Nodup ↔ count ≤ 2 ^ 32 := by
  constructor
  · intro hnodup
    by_contra hlt
    have hinj := inj_on_of_nodup_map hnodup (mem_range.2 (by omega : 0 < count))
      (mem_range.2 (by omega : 2 ^ 32 < count)) (by decide)
    omega
  · intro hle
    refine (nodup_map_iff_inj_on nodup_range).2 fun first hfirst second hsecond heq => ?_
    have hofNat : UInt32.ofNat first = UInt32.ofNat second := congrArg NodeRef.val heq
    have hnat := congrArg UInt32.toNat hofNat
    rw [mem_range] at hfirst hsecond
    rw [UInt32.toNat_ofNat', UInt32.toNat_ofNat', Nat.mod_eq_of_lt (by omega),
      Nat.mod_eq_of_lt (by omega)] at hnat
    exact hnat

variable (tables) in
/-- No name is changed, and no capability takes the name of an item. -/
structure LoadedProgram.NamesKept : Prop where
  stable : ∀ item ∈ loaded.sourceItems, normalizeId tables item.name = item.name
  apart : ∀ capability ∈ loaded.capabilities, ∀ item ∈ loaded.sourceItems,
    normalizeId tables capability ≠ item.name

/-- An item as it is seen in the graph that is the program. -/
def LoadedProgram.seen (item : SourceItem) : List (Option String × List ParamDecl) :=
  [(some (String.ofList (loaded.aclBody item.body)), item.params.map paramDecl)]

/-- An item whose name is kept is created once. -/
theorem LoadedProgram.filter_made (hnames : loaded.NamesKept tables)
    (hitem : item ∈ loaded.sourceItems) :
    (loaded.made tables).filter (·.1 = .ofList item.name) =
      [(nodeName tables item.name, some (.ofList (loaded.aclBody item.body)))] := by
  have hcapabilities : (loaded.capabilities.map fun capability =>
      (nodeName tables capability, (none : Option String))).filter
        (·.1 = .ofList item.name) = [] := by
    rw [filter_eq_nil_iff]
    intro one hone heq
    obtain ⟨capability, hcapability, rfl⟩ := mem_map.1 hone
    exact hnames.apart capability hcapability item hitem
      (String.ofList_injective (of_decide_eq_true heq))
  have hitems : loaded.sourceItems.filter
      (fun other => nodeName tables other.name = .ofList item.name) = [item] := by
    rw [← filter_key_eq loaded.names_nodup hitem]
    refine filter_congr fun other hother => decide_eq_decide.2 ?_
    rw [nodeName, hnames.stable other hother]
    exact ⟨fun h => String.ofList_injective h, congrArg String.ofList⟩
  rw [made, filter_append, hcapabilities, filter_map]
  exact congrArg (List.map _) hitems

/-- It gets its own parameters, in order. -/
theorem LoadedProgram.filter_added (hnames : loaded.NamesKept tables)
    (hitem : item ∈ loaded.sourceItems) :
    ((loaded.added tables).filter (·.1 = .ofList item.name)).map (·.2) =
      item.params.map paramDecl := by
  have hpairs : loaded.paramPairs.filter
      (fun pair => nodeName tables pair.1.name = .ofList item.name) =
        (loaded.sourceItems.filter fun other => other.name = item.name).flatMap fun other =>
          other.params.map fun param => (other, param) := by
    have hstable := hnames.stable
    rw [paramPairs]
    generalize loaded.sourceItems = items at hstable
    induction items with
    | nil => rfl
    | cons first rest ih =>
      have hfirst := hstable first (.head _)
      rw [flatMap_cons, filter_append, ih fun other h => hstable other (.tail _ h), filter_map]
      by_cases heq : first.name = item.name
      · rw [filter_cons, if_pos (decide_eq_true heq)]
        congr 2
        refine filter_eq_self.2 fun param _ => decide_eq_true ?_
        rw [nodeName, hfirst, heq]
      · rw [filter_cons_of_neg (by simpa using heq)]
        have hnone : first.params.filter ((fun pair : SourceItem × SourceParam =>
            decide (nodeName tables pair.1.name = .ofList item.name)) ∘
              fun param => (first, param)) = [] := by
          refine filter_eq_nil_iff.2 fun param _ hname => heq ?_
          have hnode : nodeName tables first.name = .ofList item.name := of_decide_eq_true hname
          rw [nodeName, hfirst] at hnode
          exact String.ofList_injective hnode
        rw [hnone]
        rfl
  rw [added, filter_map, map_map]
  have hfilter := hpairs.trans (congrArg (List.flatMap _) (filter_key_eq loaded.names_nodup hitem))
  rw [flatMap_cons, flatMap_nil, append_nil] at hfilter
  refine (congrArg (List.map _) hfilter).trans ?_
  rw [map_map]
  rfl

theorem LoadedProgram.names_of_filter_made {one : String × Option String} {body : String}
    (hone : (loaded.made tables).filter (·.1 = .ofList item.name) = [one])
    (hbody : one.2 = some body) :
    normalizeId tables item.name = item.name ∧
      ∀ capability ∈ loaded.capabilities, normalizeId tables capability ≠ item.name := by
  have hmem : one ∈ (loaded.made tables).filter (·.1 = .ofList item.name) := by
    rw [hone]
    exact .head _
  obtain ⟨hmade, hname⟩ := mem_filter.1 hmem
  constructor
  · rcases mem_append.1 hmade with hcapability | hitem
    · obtain ⟨capability, -, rfl⟩ := mem_map.1 hcapability
      cases hbody
    · obtain ⟨other, hother, rfl⟩ := mem_map.1 hitem
      have heq : normalizeId tables other.name = item.name :=
        String.ofList_injective (of_decide_eq_true hname)
      rw [← heq, normalizeId_idem fun c hc =>
        ascii_of_isPlainChar ((loaded.plain_items other hother).1 c hc)]
  · intro capability hcapability heq
    have hother : (nodeName tables capability, none) ∈
        (loaded.made tables).filter (·.1 = .ofList item.name) := by
      refine mem_filter.2 ⟨mem_append_left _ (mem_map_of_mem hcapability), ?_⟩
      exact decide_eq_true (congrArg String.ofList heq)
    rw [hone, mem_singleton] at hother
    rw [← hother] at hbody
    cases hbody

/-- Every item is seen as it was written exactly if the names are kept. -/
theorem LoadedProgram.seen_iff (hwhole : loaded.AllWhole)
    (hgraph : applyOps .empty (programOps tables digests loaded.opTexts) = .ok graph) :
    (∀ item ∈ loaded.sourceItems, view (.ofList item.name) graph = loaded.seen item) ↔
      loaded.NamesKept tables := by
  have hview := loaded.view_program hwhole hgraph
  constructor
  · intro hseen
    have hitems : ∀ item ∈ loaded.sourceItems, normalizeId tables item.name = item.name ∧
        ∀ capability ∈ loaded.capabilities, normalizeId tables capability ≠ item.name := by
      intro item hitem
      have hone := (hview (.ofList item.name)).symm.trans (hseen item hitem)
      rcases hfilter : (loaded.made tables).filter (·.1 = .ofList item.name) with
        _ | ⟨one, _ | ⟨two, rest⟩⟩
      · rw [hfilter] at hone
        cases hone
      · rw [hfilter] at hone
        have hbody := congrArg Prod.fst (List.cons.inj hone).1
        exact loaded.names_of_filter_made hfilter hbody
      · rw [hfilter] at hone
        have hrest := (List.cons.inj hone).2
        cases hrest
    exact ⟨fun item h => (hitems item h).1, fun capability hcapability item h =>
      (hitems item h).2 capability hcapability⟩
  · intro hnames item hitem
    have hdistinct : ((item.params.map paramDecl).map (·.name)).Nodup := by
      rw [map_map]
      have hnodup := (loaded.params_nodup item hitem).map
        (fun _ _ h => String.ofList_injective h : Function.Injective String.ofList)
      rwa [map_map] at hnodup
    rw [hview, loaded.filter_made hnames hitem, loaded.filter_added hnames hitem, map_cons,
      modifyHead_cons, foldl_pushParam (by simpa using hdistinct)]
    rfl

theorem LoadedProgram.reaches_iff_seen :
    loaded.ReachesGraph tables digests nodeHash changeName ↔
      ∃ graph, sourceProgramToGraph loaded.toSourceProgram tables digests nodeHash changeName =
          .ok graph ∧
        ∀ item ∈ loaded.sourceItems, view (.ofList item.name) graph = loaded.seen item := by
  refine exists_congr fun graph => and_congr_right fun _ => forall₂_congr fun item _ => ?_
  constructor
  · rintro ⟨node, hnode, hbody, hparams⟩
    rw [view, hnode, map_cons, hbody, hparams]
    rfl
  · intro hview
    obtain ⟨node, hnode, heq⟩ := map_eq_singleton_iff.1 hview
    obtain ⟨hbody, hparams⟩ := Prod.mk.inj heq
    exact ⟨node, hnode, hbody, hparams⟩

variable (tables digests nodeHash)

/-- A loaded program reaches the graph unchanged exactly if its texts stay
on their lines and are read back whole, its names are kept, and there are
refs enough for its nodes. -/
theorem sourceProgramToGraph_faithful_iff {changeName : List Char} (hname : Plain changeName) :
    loaded.ReachesGraph tables digests nodeHash changeName ↔
      loaded.OneLined ∧ loaded.AllWhole ∧ loaded.NamesKept tables ∧
        loaded.capabilities.length + loaded.sourceItems.length ≤ 2 ^ 32 := by
  have hexists : loaded.AllWhole →
      ((∃ graph, applyOps .empty (programOps tables digests loaded.opTexts) = .ok graph) ↔
        loaded.capabilities.length + loaded.sourceItems.length ≤ 2 ^ 32) := by
    intro hwhole
    rw [applyOps_simple_iff (loaded.simple hwhole) SemanticGraph.valid_empty,
      loaded.createdRefs hwhole, ← nodup_nodeAt_iff]
    rfl
  constructor
  · intro hreaches
    have hlines := loaded.oneLined_of_reaches hreaches
    have hwhole := loaded.whole_of_reaches hname hreaches
    obtain ⟨graph, hgraph, hseen⟩ := (loaded.reaches_iff_seen).1 hreaches
    rw [sourceProgramToGraph_eq_ok_iff loaded tables digests nodeHash hname hlines] at hgraph
    exact ⟨hlines, hwhole, (loaded.seen_iff hwhole hgraph).1 hseen,
      (hexists hwhole).1 ⟨graph, hgraph⟩⟩
  · rintro ⟨hlines, hwhole, hnames, hcount⟩
    obtain ⟨graph, hgraph⟩ := (hexists hwhole).2 hcount
    refine (loaded.reaches_iff_seen).2 ⟨graph, ?_, (loaded.seen_iff hwhole hgraph).2 hnames⟩
    exact (sourceProgramToGraph_eq_ok_iff loaded tables digests nodeHash hname hlines graph).2
      hgraph

/-- Digests that tell nothing apart. -/
def blankDigests : Digests := ⟨fun _ => "", fun _ _ => ⟨[]⟩⟩

/-- `fn app.greet() -> Text = "hi"`. -/
def greeting : LoadedProgram where
  functions := [⟨"fn.app.greet".toList, [], "Text".toList, "\"hi\"".toList⟩]
  plain_capabilities := by decide
  plain_items := by decide
  plain_grants := by decide
  names_nodup := by decide
  params_nodup := by decide

/-- The quotes of a text that is the whole body are taken for the quotes
of the value, so the body in the graph is the name `hi`. -/
theorem quotedBody_is_lost :
    ¬ greeting.ReachesGraph .ascii blankDigests (fun _ => ⟨[]⟩) "main".toList := by
  intro hreaches
  have hwhole := greeting.whole_of_reaches (by decide) hreaches
    ⟨"create_function", "fn.app.greet".toList, "Text".toList, [], "\"hi\"".toList⟩ (by decide)
  have hbody : greeting.aclBody "\"hi\"".toList = "\"hi\"".toList :=
    sourceExprToAclBody_leaf (by decide)
  rw [hbody] at hwhole
  rcases hwhole.unbroken with ⟨-, hopen⟩ | ⟨hhead, -⟩
  · exact hopen (by decide)
  · exact hhead (by decide)

/-- `fn app.greet(name: Text) -> Text = name`. -/
def echo : LoadedProgram where
  functions :=
    [⟨"fn.app.greet".toList, [⟨"name".toList, "Text".toList⟩], "Text".toList, "name".toList⟩]
  plain_capabilities := by decide
  plain_items := by decide
  plain_grants := by decide
  names_nodup := by decide
  params_nodup := by decide

theorem sourceProgramToGraph_faithful_echo :
    echo.ReachesGraph .ascii blankDigests (fun _ => ⟨[]⟩) "main".toList := by
  have hbody : ∀ item ∈ echo.sourceItems, echo.aclBody item.body = "name".toList := by
    intro item hitem
    rw [mem_singleton.1 hitem]
    exact sourceExprToAclBody_leaf (by decide)
  refine (sourceProgramToGraph_faithful_iff echo .ascii blankDigests _ (by decide)).2
    ⟨fun item hitem => ?_, fun item hitem => ?_, ⟨by decide, by decide⟩, by decide⟩
  · rw [hbody item hitem]
    decide
  · rw [hbody item hitem]
    exact Plain.whole (by decide)

end Ail.Cli
