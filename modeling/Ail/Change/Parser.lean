import Ail.Change.Model
import Ail.Core.Text

/-!
# The change language

The line-oriented parser of changesets (`ail-change`, `parser.rs` and
`parser_types.rs`). A document is read line by line; what is kept between
two lines is an `AclState`, the open section and the open block included.

An `op` line gives its verb and its `key=value` arguments. A value is
quoted, up to the next quote, or bare, up to the first blank outside
round, curly and square brackets. Neither reading knows about the string
literals of an expression.
-/

namespace Ail.Change

open Ail.Core

/-! ## Arguments -/

/-- `BTreeMap<String, String>`: one entry for a key, in the order of the
keys. -/
abbrev OpArgs := List (String × String)

/-- `BTreeMap::insert`. -/
def insertArg (key value : String) : OpArgs → OpArgs
  | [] => [(key, value)]
  | entry :: rest =>
    if key < entry.1 then (key, value) :: entry :: rest
    else if key = entry.1 then (key, value) :: rest
    else entry :: insertArg key value rest

/-- `entry(key).or_insert(value)`. -/
def orInsertArg (key value : String) (args : OpArgs) : OpArgs :=
  if (args.lookup key).isSome then args else insertArg key value args

/-- What `get_mut` of a key changes. -/
def updateArg (key : String) (update : String → String) (args : OpArgs) : OpArgs :=
  args.map fun entry => if entry.1 = key then (entry.1, update entry.2) else entry

/-- How many brackets of each sort are open. -/
structure Depth where
  paren : Nat := 0
  brace : Nat := 0
  bracket : Nat := 0
  deriving DecidableEq

/-- A closing bracket that nothing opened is passed over. -/
def Depth.step (depth : Depth) (c : Char) : Depth :=
  if c = '(' then { depth with paren := depth.paren + 1 }
  else if c = ')' then { depth with paren := depth.paren - 1 }
  else if c = '\x7b' then { depth with brace := depth.brace + 1 }
  else if c = '\x7d' then { depth with brace := depth.brace - 1 }
  else if c = '[' then { depth with bracket := depth.bracket + 1 }
  else if c = ']' then { depth with bracket := depth.bracket - 1 }
  else depth

/-- The two sides of `bare_value_end`. -/
def bareValue (depth : Depth) : List Char → List Char × List Char
  | [] => ([], [])
  | c :: cs =>
    if isWhitespace c ∧ depth = {} then ([], c :: cs)
    else (c :: (bareValue (depth.step c) cs).1, (bareValue (depth.step c) cs).2)

def extractStringValue (token : List Char) : List Char :=
  if token.head? = some '"' ∧ token.getLast? = some '"' ∧ 2 ≤ token.length then
    token.tail.dropLast
  else token

/-- The value at the front of the text, and what is left behind it. -/
def readValue (remaining : List Char) : List Char × List Char :=
  match remaining with
  | '"' :: stripped =>
    match splitOnce '"' stripped with
    | some (inside, after) => (extractStringValue (trim ('"' :: inside ++ ['"'])), trimStart after)
    | none => (extractStringValue (trim remaining), [])
  | remaining =>
    let (value, after) := bareValue {} remaining
    (trim value, trimStart after)

/-- The loop of `parse_kv_args`. Every round takes an equals sign off the
text, so `fuel` up to its length never runs out (`kvPairs_congr`). -/
def kvPairs : Nat → List Char → List (List Char × List Char)
  | 0, _ => []
  | fuel + 1, remaining =>
    match splitOnce '=' remaining with
    | none => []
    | some (key, after) => (trim key, (readValue after).1) :: kvPairs fuel (readValue after).2

/-- The pairs of a text, in the order they stand there. -/
def kvEntries (remaining : List Char) : List (List Char × List Char) :=
  kvPairs remaining.length remaining

/-- A later pair takes the place of an earlier one with its key; a pair
without a key is dropped. -/
def insertPair (args : OpArgs) (pair : List Char × List Char) : OpArgs :=
  if pair.1 = [] then args else insertArg (String.ofList pair.1) (String.ofList pair.2) args

def parseKvArgs (argsStr : List Char) : OpArgs := (kvEntries (trim argsStr)).foldl insertPair []

/-- The value of one key in a list of words, `extract_kv_value`. -/
def extractKvValue (kvStr : List Char) (key : String) : Option (List Char) :=
  (splitWhitespace kvStr).findSome? fun pair =>
    (stripFront (key ++ "=") pair).map extractStringValue

/-! ## The parts of a document -/

structure ParsedOp where
  kind : ChangeSetOp
  verb : String
  args : OpArgs

structure ChangeComposition where
  dependsOn : List String := []
  supersedes : List String := []
  conflictsWith : List String := []
  partOf : List String := []
  blocks : List String := []

structure ParsedBlock where
  kind : String
  blockRef : String
  content : String
  hash : Option String

inductive AclSection where
  | topLevel | metadata | requires | ops | expect | approval | block | verify
  deriving DecidableEq

def AclSection.text : AclSection → String
  | .topLevel => "top level"
  | .metadata => "metadata"
  | .requires => "requires"
  | .ops => "ops"
  | .expect => "expect"
  | .approval => "approval"
  | .block => "block"
  | .verify => "verify"

/-- What `parse_changeset` has read so far. -/
structure AclState where
  author : Option String := none
  description : Option String := none
  base : Option SnapshotId := none
  aclVersion : String := "1.0"
  opSchemaVersion : Option String := none
  graphSchemaVersion : Option String := none
  coreIrSchemaVersion : Option String := none
  diagnosticsSchemaVersion : Option String := none
  verificationSchemaVersion : Option String := none
  parsedOps : List ParsedOp := []
  preconditions : List Precondition := []
  expectClaims : List String := []
  approvalReqs : List String := []
  composition : ChangeComposition := {}
  blocks : List ParsedBlock := []
  verifyLines : List String := []
  currentBlock : Option ParsedBlock := none
  inVerifyBlock : Bool := false
  current : AclSection := .topLevel
  inChange : Bool := false

/-- The changeset itself (author, description, time stamp, base) and what
the document says besides. The kinds of its ops are those of `parsedOps`. -/
structure ParsedChangeSet where
  author : String
  description : String
  timestamp : Timestamp := ⟨0⟩
  baseSnapshotId : SnapshotId
  parsedOps : List ParsedOp
  preconditions : List Precondition
  aclVersion : String
  opSchemaVersion : Option String
  graphSchemaVersion : Option String
  coreIrSchemaVersion : Option String
  diagnosticsSchemaVersion : Option String
  verificationSchemaVersion : Option String
  expect : Option (List String)
  approval : Option (List String)
  composition : ChangeComposition
  blocks : List ParsedBlock
  verify : List String

/-! ## The lines of a document -/

variable (lineNum : Nat)

def atLine (message : String) : String :=
  "line " ++ toString lineNum ++ ": " ++ message

/-- The verbs, each one standing for itself and for itself followed by an
underscore and anything. -/
def verbKinds : List (String × ChangeSetOp) :=
  [("create", .create), ("set", .set), ("add", .add), ("remove", .remove), ("delete", .delete),
    ("disconnect", .disconnect), ("rename", .rename), ("move", .move), ("replace", .replace),
    ("connect", .connect), ("bind", .bind), ("expose", .expose), ("hide", .hide),
    ("grant", .grant), ("revoke", .revoke), ("infer", .infer), ("derive", .derive),
    ("generate", .generate), ("assert", .assert), ("lock", .lock), ("refactor", .refactor),
    ("migrate", .migrate), ("approve", .approve), ("reject", .reject),
    ("deprecate", .deprecate), ("annotate", .annotate), ("verify", .verify)]

def mapVerb (verb : String) : Option ChangeSetOp :=
  (verbKinds.find? fun entry => verb = entry.1 ∨ startsWith verb (entry.1 ++ "_")).map (·.2)

def parseSnapshotId (raw : List Char) : Except String SnapshotId :=
  match usizeFromStr ((stripFront "snapshot_" raw).getD raw) with
  | some n => .ok ⟨UInt64.ofNat n⟩
  | none => .error (atLine lineNum ("invalid base snapshot id: '" ++ String.ofList raw ++ "'"))

/-- The attributes behind the name on a `change` line; unknown ones are
passed over. -/
def parseChangeLineAttrs (lineNum : Nat) : List (List Char) → AclState → Except String AclState
  | [], state => .ok state
  | token :: tokens, state =>
    match stripFront "acl=" token, stripFront "base=" token with
    | some version, _ =>
      parseChangeLineAttrs lineNum tokens { state with aclVersion := String.ofList version }
    | none, some raw =>
      match parseSnapshotId lineNum raw with
      | .error message => .error message
      | .ok base => parseChangeLineAttrs lineNum tokens { state with base := some base }
    | none, none => parseChangeLineAttrs lineNum tokens state

/-- The text after the first `count` spaces, as the last part of
`splitn(count + 1, ' ')`. -/
def afterSpaces : Nat → List Char → Option (List Char)
  | 0, cs => some cs
  | count + 1, cs =>
    match splitOnce ' ' cs with
    | none => none
    | some (_, rest) => afterSpaces count rest

/-- The text up to the first space. -/
def beforeSpace (cs : List Char) : List Char :=
  match splitOnce ' ' cs with
  | none => cs
  | some (first, _) => first

variable (rest : List Char)

def parseBlockHeader : Except String ParsedBlock :=
  let kind := beforeSpace rest
  if kind = [] then .error (atLine lineNum "block requires a kind (e.g. 'expr')")
  else
    match ((afterSpaces 1 rest).map beforeSpace).filter (·.head? = some '@') with
    | none => .error (atLine lineNum "block requires a @ref identifier")
    | some blockRef =>
      let attrs := trim ((afterSpaces 2 rest).getD [])
      let hash := (splitWhitespace attrs).findSome? fun token =>
        (stripFront "hash=" token).map extractStringValue
      .ok ⟨String.ofList kind, String.ofList blockRef, "", hash.map String.ofList⟩

/-- The metadata directives, tried in this order. -/
def directives : List (String × (List Char → AclState → Except String AclState)) :=
  let text (v : List Char) : String := String.ofList (trim v)
  [("author ", fun v state => .ok { state with author := some (text v) }),
    ("description ", fun v state => .ok { state with description := some (text v) }),
    ("intent ", fun v state =>
      .ok { state with description := some (String.ofList (extractStringValue (trim v))) }),
    ("base ", fun v state =>
      (parseSnapshotId lineNum (trim v)).map fun base => { state with base := some base }),
    ("language ", fun v state =>
      match stripFront "acl/" (trim v) with
      | some version => .ok { state with aclVersion := String.ofList version }
      | none => .ok state),
    ("acl_version ", fun v state =>
      .ok { state with
        aclVersion := String.ofList ((stripFront "acl/" (trim v)).getD (trim v)) }),
    ("op_schema ", fun v state => .ok { state with opSchemaVersion := some (text v) }),
    ("graph_schema ", fun v state => .ok { state with graphSchemaVersion := some (text v) }),
    ("core_ir_schema ", fun v state => .ok { state with coreIrSchemaVersion := some (text v) }),
    ("diagnostics_schema ", fun v state =>
      .ok { state with diagnosticsSchemaVersion := some (text v) }),
    ("verification_schema ", fun v state =>
      .ok { state with verificationSchemaVersion := some (text v) }),
    ("depends_on ", fun v state =>
      .ok { state with composition.dependsOn := state.composition.dependsOn ++ [text v] }),
    ("supersedes ", fun v state =>
      .ok { state with composition.supersedes := state.composition.supersedes ++ [text v] }),
    ("conflicts_with ", fun v state =>
      .ok { state with composition.conflictsWith := state.composition.conflictsWith ++ [text v] }),
    ("part_of ", fun v state =>
      .ok { state with composition.partOf := state.composition.partOf ++ [text v] }),
    ("blocks ", fun v state =>
      .ok { state with composition.blocks := state.composition.blocks ++ [text v] }),
    ("author_role ", fun _ state => .ok state),
    ("reason ", fun _ state => .ok state)]

variable (line : List Char) (state : AclState)

def parseMetadataLine : Except String AclState :=
  match (directives lineNum).findSome? fun entry => (stripFront entry.1 line).map entry.2 with
  | some run => run state
  | none =>
    if "op ".toList <+: line then
      .error (atLine lineNum "'op' directive is not allowed inside 'metadata' section")
    else .error (atLine lineNum ("unrecognised directive: '" ++ String.ofList line ++ "'"))

/-- The verb up to the first blank, and the arguments behind it. -/
def splitVerb : List Char × List Char :=
  (trim (rest.takeWhile (!isWhitespace ·)), trim ((rest.dropWhile (!isWhitespace ·)).drop 1))

def parseOp : Except String AclState :=
  let verb := String.ofList (splitVerb rest).1
  match mapVerb verb with
  | none => .error (atLine lineNum ("unknown op verb: '" ++ verb ++ "'"))
  | some kind =>
    .ok { state with
      parsedOps := state.parsedOps ++ [⟨kind, verb, parseKvArgs (splitVerb rest).2⟩] }

def parseOpOrDirective : Except String AclState :=
  match stripFront "op " line with
  | some rest => parseOp lineNum rest state
  | none =>
    if state.current = .topLevel then parseMetadataLine lineNum line state
    else .error (atLine lineNum
      ("expected 'op' directive inside 'ops' section, got: '" ++ String.ofList line ++ "'"))

def hexNibble (c : UInt8) : Except String UInt8 :=
  if 48 ≤ c ∧ c ≤ 57 then .ok (c - 48)
  else if 97 ≤ c ∧ c ≤ 102 then .ok (c - 97 + 10)
  else if 65 ≤ c ∧ c ≤ 70 then .ok (c - 65 + 10)
  else .error (atLine lineNum
    ("invalid hex character: '" ++ String.singleton (Char.ofNat c.toNat) ++ "'"))

def hexBytes (lineNum : Nat) : List UInt8 → Except String (List UInt8)
  | hi :: lo :: rest => do
    let hi ← hexNibble lineNum hi
    let lo ← hexNibble lineNum lo
    let bytes ← hexBytes lineNum rest
    .ok ((hi <<< 4 ||| lo) :: bytes)
  | _ => .ok []

def decodeHex32 (hex : List Char) : Except String BlockHash :=
  let bytes := hex.flatMap String.utf8EncodeChar
  if bytes.length ≠ 64 then
    .error (atLine lineNum
      ("hash must be 64 hex characters, got " ++ toString bytes.length ++ " characters"))
  else (hexBytes lineNum bytes).map BlockHash.mk

def parseAssertHash : Except String Precondition :=
  let idPart := trim (beforeSpace rest)
  let kvPart := trim ((afterSpaces 1 rest).getD [])
  match extractKvValue kvPart "sig" with
  | none => .error (atLine lineNum "assert_hash requires 'sig=<hex>' argument")
  | some hex =>
    (decodeHex32 lineNum hex).map fun expectedHash =>
      match u32FromStr idPart with
      | some n => .assertHash ⟨n⟩ expectedHash
      | none => .assertHashByName (String.ofList idPart) expectedHash

def parseAssertContext : Except String Precondition :=
  let targetName := trim (beforeSpace rest)
  let kvPart := trim ((afterSpaces 1 rest).getD [])
  let contextHash := (extractKvValue kvPart "hash").or (extractKvValue kvPart "context_hash")
  if targetName = [] then .error (atLine lineNum "assert_context requires a target name")
  else .ok (.assertContext (String.ofList targetName) (contextHash.map String.ofList))

def parsePreconditionLine : Except String Precondition :=
  match stripFront "assert_exists " line, stripFront "assert_hash " line,
      stripFront "assert_context " line with
  | some rest, _, _ =>
    match u32FromStr (trim rest) with
    | some n => .ok (.assertExists ⟨n⟩)
    | none => .ok (.assertExistsByName (String.ofList (trim rest)))
  | none, some rest, _ => parseAssertHash lineNum rest
  | none, none, some rest => parseAssertContext lineNum rest
  | none, none, none =>
    .error (atLine lineNum ("unrecognised precondition: '" ++ String.ofList line ++ "'"))

/-! ## The state machine -/

/-- A blank line inside a block is part of its content. -/
def skipLine : AclState :=
  match state.currentBlock with
  | some block =>
    if line = [] then
      { state with currentBlock := some { block with content := block.content ++ "\n" } }
    else state
  | none => state

def openChange : Except String AclState :=
  if state.inChange then
    .error (atLine lineNum "nested 'change' declaration is not allowed")
  else
    let afterId := trim ((afterSpaces 2 line).getD [])
    parseChangeLineAttrs lineNum (splitWhitespace afterId) { state with inChange := true }

/-- `end` closes the innermost thing that is open. -/
def closeInnermost : AclState :=
  match state.currentBlock with
  | some block => { state with currentBlock := none, blocks := state.blocks ++ [block] }
  | none =>
    if state.inVerifyBlock then { state with inVerifyBlock := false, current := .topLevel }
    else if state.current = .topLevel then { state with inChange := false }
    else { state with current := .topLevel }

def collectBlockLine (block : ParsedBlock) : ParsedBlock :=
  { block with content :=
      (if block.content = "" then block.content else block.content ++ "\n") ++ String.ofList line }

/-- A line of the open section. -/
def parseSectionLine : Except String AclState :=
  match state.current with
  | .metadata => parseMetadataLine lineNum line state
  | .requires =>
    (parsePreconditionLine lineNum line).map fun precondition =>
      { state with preconditions := state.preconditions ++ [precondition] }
  | .topLevel | .ops => parseOpOrDirective lineNum line state
  | .expect => .ok { state with expectClaims := state.expectClaims ++ [String.ofList line] }
  | .approval => .ok { state with approvalReqs := state.approvalReqs ++ [String.ofList line] }
  | .block | .verify => .ok state

/-- The words that open a section. -/
def sectionOpener : Option AclSection :=
  if line = "metadata".toList then some .metadata
  else if line = "requires".toList then some .requires
  else if line = "ops".toList then some .ops
  else if line = "expect".toList then some .expect
  else if line = "approval".toList then some .approval
  else none

/-- The forms of `verify`, at the top level and inside a `verify` block. -/
def verifyLine : Option AclState :=
  if state.current = .topLevel ∨ state.current = .verify then
    if line = "verify".toList then some { state with inVerifyBlock := true, current := .verify }
    else match stripFront "verify " line with
      | some rest =>
        some { state with verifyLines := state.verifyLines ++ [String.ofList (trim rest)] }
      | none =>
        if state.current = .verify then
          some { state with verifyLines := state.verifyLines ++ [String.ofList line] }
        else none
  else none

/-- A line that is neither blank nor a comment, neither opens a change
nor closes anything, outside a block. -/
def parseBodyLine : Except String AclState :=
  if "block ".toList <+: line ∧ state.current = .topLevel then
    (parseBlockHeader lineNum (line.drop 6)).map fun block =>
      { state with currentBlock := some block }
  else match verifyLine line state with
    | some state => .ok state
    | none =>
      match sectionOpener line with
      | some opened => .ok { state with current := opened }
      | none => parseSectionLine lineNum line state

/-- One turn of the line loop. -/
def parseLine : Except String AclState :=
  if line = [] ∨ line.head? = some '#' then .ok (skipLine line state)
  else if "change ".toList <+: line ∨ line = "change".toList then openChange lineNum line state
  else if line = "end".toList then .ok (closeInnermost state)
  else match state.currentBlock with
    | some block => .ok { state with currentBlock := some (collectBlockLine line block) }
    | none => parseBodyLine lineNum line state

/-- The line loop, from a line number on. -/
def parseLines : Nat → List (List Char) → AclState → Except String AclState
  | _, [], state => .ok state
  | lineNum, line :: lines, state =>
    match parseLine lineNum line state with
    | .error message => .error message
    | .ok state => parseLines (lineNum + 1) lines state

/-- The checks after the last line. -/
def finishParse : Except String ParsedChangeSet :=
  if state.currentBlock.isSome then .error "unclosed block section"
  else if state.current ≠ .topLevel then .error ("unclosed section: " ++ state.current.text)
  else match state.author, state.base with
    | none, _ => .error "missing required field: author"
    | some _, none => .error "missing required field: base"
    | some author, some base =>
      .ok {
        author
        description := state.description.getD ""
        baseSnapshotId := base
        parsedOps := state.parsedOps
        preconditions := state.preconditions
        aclVersion := state.aclVersion
        opSchemaVersion := state.opSchemaVersion
        graphSchemaVersion := state.graphSchemaVersion
        coreIrSchemaVersion := state.coreIrSchemaVersion
        diagnosticsSchemaVersion := state.diagnosticsSchemaVersion
        verificationSchemaVersion := state.verificationSchemaVersion
        expect := if state.expectClaims = [] then none else some state.expectClaims
        approval := if state.approvalReqs = [] then none else some state.approvalReqs
        composition := state.composition
        blocks := state.blocks
        verify := state.verifyLines }

def parseChangeset (src : List Char) : Except String ParsedChangeSet :=
  match parseLines 1 ((textLines src).map trim) {} with
  | .error message => .error message
  | .ok state => finishParse state

end Ail.Change
