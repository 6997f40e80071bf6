import Ail.Change.Canonical
import Ail.Cli.Store

/-!
# Source programs

From a loaded source program to its semantic graph (`source_commands`,
`lower.rs`, `model.rs` and `syntax.rs`). The program is written out as a
text of the change language, one line for a declaration, and that text is
parsed, canonicalized and applied to the empty graph.

The bodies are texts already: what `lower_source_expr` made of the
expression. `sourceExprToAclBody` resolves the names of constants in
them. The spellings kept for the formatter and for the type checker, the
positions and the imports play no part and are left out.
-/

namespace Ail.Cli

open Ail.Core Change List

/-! ## Programs -/

structure SourceParam where
  name : List Char
  ty : List Char
  deriving DecidableEq

structure SourceConst where
  name : List Char
  returnType : List Char
  body : List Char
  deriving DecidableEq

structure SourceFunction where
  name : List Char
  params : List SourceParam
  returnType : List Char
  body : List Char
  deriving DecidableEq

structure SourceTest where
  name : List Char
  returnType : List Char
  body : List Char
  deriving DecidableEq

structure SourceGrant where
  target : List Char
  capability : List Char
  deriving DecidableEq

structure SourceProgram where
  capabilities : List (List Char) := []
  constants : List SourceConst := []
  functions : List SourceFunction := []
  tests : List SourceTest := []
  grants : List SourceGrant := []
  deriving DecidableEq

/-! ## Names -/

def isNameChar (c : Char) : Bool := c.isAlphanum || c == '_' || c == '.'

def startsSegment (segment : List Char) : Bool :=
  match segment with
  | [] => false
  | c :: _ => c.isAlpha || c == '_'

variable (name : List Char)

def isSourceIdent : Bool :=
  name ≠ [] && name.all isNameChar && (splitAtChar '.' name).all startsSegment

def isSourceLocalIdent : Bool := isSourceIdent name && !name.contains '.'

/-- The spellings a constant answers to, each with what it stands for. -/
def sourceConstReferenceNames : List (List Char × List Char) :=
  let bare := (stripFront "fn." name).getD name
  [(bare, bare), (name, bare)] ++
    match splitOnce '.' bare with
    | some (_, loc) => [(loc, bare)]
    | none => []

/-- The entries of the map of constants; a later one wins. -/
def sourceConstantNames (program : SourceProgram) : List (List Char × List Char) :=
  program.constants.flatMap fun constant => sourceConstReferenceNames constant.name

def sourceConstReferenceTarget (constants : List (List Char × List Char)) : Option (List Char) :=
  (constants.reverse.lookup name).or (constants.reverse.lookup ("fn.".toList ++ name))

/-! ## Calls -/

/-- Where a scan stands with respect to string literals. -/
structure Quoting where
  inString : Bool := false
  prevWasEscape : Bool := false

def Quoting.step (quoting : Quoting) (ch : Char) : Quoting :=
  if quoting.inString then
    ⟨!(ch == '"' && !quoting.prevWasEscape), ch == '\\' && !quoting.prevWasEscape⟩
  else ⟨ch == '"', false⟩

/-- The number of characters before the bracket that brings the depth
back to zero. -/
def matchingParen (depth : Nat) (quoting : Quoting) : List Char → Option Nat
  | [] => none
  | ch :: rest =>
    if quoting.inString then (matchingParen depth (quoting.step ch) rest).map (· + 1)
    else if ch = '(' then (matchingParen (depth + 1) (quoting.step ch) rest).map (· + 1)
    else if ch = ')' then
      if depth - 1 = 0 then some 0
      else (matchingParen (depth - 1) (quoting.step ch) rest).map (· + 1)
    else (matchingParen depth (quoting.step ch) rest).map (· + 1)

def angleStep (angle : Nat) (ch : Char) : Nat :=
  if ch = '<' then angle + 1 else if ch = '>' then angle - 1 else angle

/-- The loop of `split_source_args`; `current` is the argument so far. -/
def splitArgs (depth : Depth) (angle : Nat) (quoting : Quoting) (current : List Char) :
    List Char → List (List Char)
  | [] => if trim current = [] then [] else [trim current]
  | ch :: rest =>
    if quoting.inString then splitArgs depth angle (quoting.step ch) (current ++ [ch]) rest
    else if ch = ',' ∧ depth = {} ∧ angle = 0 then
      trim current :: splitArgs depth angle (quoting.step ch) [] rest
    else
      splitArgs (depth.step ch) (angleStep angle ch) (quoting.step ch) (current ++ [ch]) rest

def splitSourceArgs (args : List Char) : List (List Char) := splitArgs {} 0 {} [] args

def parseSourceCall (text : List Char) : Option (List Char × List (List Char)) :=
  let expr := trim text
  match splitOnce '(' expr with
  | none => none
  | some (before, after) =>
    if expr.getLast? ≠ some ')' then none
    else if matchingParen 0 {} ('(' :: after) ≠ some after.length then none
    else if !isSourceIdent (trim before) then none
    else some (trim before, splitSourceArgs after.dropLast)

theorem length_of_mem_splitArgs {depth : Depth} {angle : Nat} {quoting : Quoting}
    {current rest arg : List Char} (hmem : arg ∈ splitArgs depth angle quoting current rest) :
    arg.length ≤ current.length + rest.length := by
  induction rest generalizing depth angle quoting current with
  | nil =>
    unfold splitArgs at hmem
    split at hmem
    · cases hmem
    · rw [mem_singleton.1 hmem]
      exact length_trim_le current
  | cons ch rest ih =>
    unfold splitArgs at hmem
    split at hmem
    · have := ih hmem
      simp only [length_append, length_cons, length_nil] at this ⊢
      omega
    · split at hmem
      · rcases mem_cons.1 hmem with rfl | hmem
        · exact (length_trim_le current).trans (by omega)
        · have := ih hmem
          simp only [length_cons, length_nil] at this ⊢
          omega
      · have := ih hmem
        simp only [length_append, length_cons, length_nil] at this ⊢
        omega

/-- The arguments of a call are shorter than the call. -/
theorem length_lt_of_parseSourceCall {text func : List Char} {args : List (List Char)}
    (hcall : parseSourceCall text = some (func, args)) {arg : List Char} (hmem : arg ∈ args) :
    arg.length < text.length := by
  unfold parseSourceCall at hcall
  dsimp only at hcall
  split at hcall
  next => exact nomatch hcall
  next before after hsplit =>
    split at hcall
    · cases hcall
    split at hcall
    · cases hcall
    split at hcall
    · cases hcall
    cases hcall
    have harg : arg.length ≤ after.dropLast.length := by
      simpa using length_of_mem_splitArgs hmem
    have htext := length_trim_le text
    rw [(splitOnce_parts hsplit).1] at htext
    simp only [length_append, length_cons, length_dropLast] at htext harg
    omega

/-! ## The text of a body -/

def commaSeparated (parts : List (List Char)) : List Char := (parts.intersperse ", ".toList).flatten

def callText (func : List Char) (args : List (List Char)) : List Char :=
  func ++ '(' :: commaSeparated args ++ [')']

/-- The names and the rewritten values of a record, two by two. -/
def recordFields : List (List Char) → List (List Char) → List (List Char)
  | name :: _ :: args, _ :: value :: lowered =>
    trim name :: value :: recordFields args lowered
  | _, _ => []

/-- A call over its arguments and over what became of each of them. -/
def aclCall (func : List Char) (args lowered : List (List Char)) : List Char :=
  match args, lowered with
  | [name, _, _, _, _], [_, _, _, value, body] =>
    if func = "let_typed".toList ∧ isSourceLocalIdent name then
      callText "let".toList [name, value, body]
    else callText func lowered
  | [_, field], [record, _] =>
    if func = "record".toList then callText func (recordFields args lowered)
    else if func = "field".toList then callText func [record, trim field]
    else callText func lowered
  | [_, field, _], [record, _, value] =>
    if func = "update".toList then callText func [record, trim field, value]
    else callText func lowered
  | _, _ =>
    if func = "record".toList ∧ args.length % 2 = 0 then callText func (recordFields args lowered)
    else callText func lowered

def sourceExprToAclBody (constants : List (List Char × List Char)) (text : List Char) :
    List Char :=
  match _ : parseSourceCall text with
  | none =>
    match sourceConstReferenceTarget (trim text) constants with
    | some constant => constant ++ "()".toList
    | none => trim text
  | some (func, args) =>
    aclCall func args (args.attach.map fun arg => sourceExprToAclBody constants arg.1)
termination_by text.length
decreasing_by exact length_lt_of_parseSourceCall ‹_› arg.2

/-! ## The text of a program -/

/-- A line of the change language: a verb and its arguments. -/
def opLine (verb : String) (args : List (String × List Char)) : List Char :=
  "op ".toList ++ verb.toList ++ args.flatMap fun arg => ' ' :: arg.1.toList ++ '=' :: arg.2

variable (program : SourceProgram)

/-- The text of a declaration's body, `source_expr_to_acl_body` under the
constants of the program. -/
def SourceProgram.aclBody (body : List Char) : List Char :=
  sourceExprToAclBody (sourceConstantNames program) body

def SourceProgram.functionLines (function : SourceFunction) : List (List Char) :=
  opLine "create_function" [("id", function.name), ("return", function.returnType),
      ("body", program.aclBody function.body)] ::
    function.params.map fun param =>
      opLine "add_param" [("target", function.name), ("name", param.name), ("type", param.ty)]

def SourceProgram.opLines : List (List Char) :=
  (program.capabilities.map fun capability => opLine "create_capability" [("id", capability)]) ++
  (program.constants.map fun constant =>
    opLine "create_function" [("id", constant.name), ("return", constant.returnType),
      ("body", program.aclBody constant.body)]) ++
  program.functions.flatMap program.functionLines ++
  (program.tests.map fun test =>
    opLine "create_test" [("id", test.name), ("return", test.returnType),
      ("body", program.aclBody test.body)]) ++
  program.grants.map fun grant =>
    opLine "grant" [("target", grant.target), ("capability", grant.capability)]

def aclHeader (changeName : List Char) : List (List Char) :=
  ["change ".toList ++ changeName, "author ail-source".toList,
    "description AIL source file".toList, "base 0".toList]

def sourceProgramToAcl (changeName : List Char) : List Char :=
  (aclHeader changeName ++ program.opLines ++ ["end".toList]).flatMap (· ++ ['\n'])

/-! ## The graph of a program -/

/-- Why there is no graph: the text does not parse, its version has no
migrator (which the source does not survive), or it does not apply. -/
inductive MaterializationError where
  | parseError (message : String)
  | unknownVersion (version : String)
  | rebaseRequired (currentSnapshotId : SnapshotId)
  | domain (message : String)

def sourceLowerToAclError (error : String) : MaterializationError :=
  .parseError ("failed to lower AIL source to ACL: " ++ error ++
    " [AIL_SOURCE_LOWER_TO_ACL] category=source.lower.to_acl")

def conflictReasonDebug : ConflictReason → String
  | .sameNodeModifiedIncompatibly => "SameNodeModifiedIncompatibly"
  | .nodeDeletedWhileModified => "NodeDeletedWhileModified"
  | .publicApiConflict => "PublicApiConflict"
  | .invariantTouchedConcurrently => "InvariantTouchedConcurrently"
  | .incompatibleNodeModification => "IncompatibleNodeModification"

/-- The outcome of the application to the empty graph. -/
def materialized : ChangeSetOutcome × SemanticGraph → Except MaterializationError SemanticGraph
  | (.applied, graph) => .ok graph
  | (.rebaseRequired id, _) => .error (.rebaseRequired id)
  | (.failed reason, _) => .error (.domain ("AIL source graph materialization failed: " ++ reason))
  | (.conflictIrresolvable reason, _) =>
    .error (.domain ("AIL source graph conflict: " ++ conflictReasonDebug reason))

variable (tables : CaseTables) (digests : Digests) (nodeHash : GraphNode → BlockHash)

def sourceProgramToGraph (changeName : List Char) : Except MaterializationError SemanticGraph :=
  match parseChangeset (sourceProgramToAcl program changeName) with
  | .error message => .error (sourceLowerToAclError message)
  | .ok parsed =>
    match tryCanonicalizeParsed tables digests parsed with
    | .error version => .error (.unknownVersion version)
    | .ok canonical => materialized (apply nodeHash ⟨0⟩ canonical .empty)

end Ail.Cli
