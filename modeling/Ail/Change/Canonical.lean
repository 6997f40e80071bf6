import Ail.Change.Apply
import Ail.Change.Parser

/-!
# Canonical changesets from parsed ones

`canonicalize_parsed` (`ail-change`, `canonical/`): the migration of an
older document, the stable order of the phases, the normalisation of the
arguments that name nodes, the defaults, the graph mutation each op
stands for, and the ops an `infer_boundary` is expanded into.

The Unicode tables and the two digests are parameters; of the tables the
ASCII part is fixed.
-/

namespace Ail.Change

open Ail.Core

/-! ## Identifiers -/

/-- `char::is_uppercase`, `char::to_lowercase` and `str::to_lowercase`. -/
structure CaseTables where
  isUppercase : Char → Bool
  charLower : Char → List Char
  textLower : List Char → List Char
  isUppercase_ascii : ∀ c, c.toNat < 128 → isUppercase c = c.isUpper
  charLower_ascii : ∀ c, c.toNat < 128 → charLower c = [c.toLower]
  textLower_ascii : ∀ cs, (∀ c ∈ cs, c.toNat < 128) → textLower cs = cs.map Char.toLower

/-- The tables of a world without letters outside ASCII. -/
def CaseTables.ascii : CaseTables where
  isUppercase := Char.isUpper
  charLower c := [c.toLower]
  textLower := List.map Char.toLower
  isUppercase_ascii _ _ := rfl
  charLower_ascii _ _ := rfl
  textLower_ascii _ _ := rfl

variable (tables : CaseTables)

/-- The characters of `pascal_to_snake` after the first one. -/
def snakeTail (cs : List Char) : List Char :=
  cs.flatMap fun c => if tables.isUppercase c then '_' :: tables.charLower c else tables.charLower c

def pascalToSnake : List Char → List Char
  | [] => []
  | c :: cs => tables.charLower c ++ snakeTail tables cs

/-- `replace('-', "_")`. -/
def kebabToSnake (cs : List Char) : List Char := cs.map fun c => if c = '-' then '_' else c

/-- The namespaces whose local part keeps its letters. -/
def pascalNamespaces : List (List Char) := ["type".toList, "handler".toList, "boundary".toList]

def normalizeId (id : List Char) : List Char :=
  match splitOnce '.' id with
  | none => id
  | some (ns, loc) =>
    let nsLower := tables.textLower ns
    let normalized :=
      if nsLower ∈ pascalNamespaces then kebabToSnake loc
      else kebabToSnake (pascalToSnake tables loc)
    nsLower ++ '.' :: normalized

/-- The arguments that name a node. -/
def idArgKeys : List String := ["id", "target", "source", "to", "from"]

variable (args : OpArgs)

def normalizeOpArgs : OpArgs :=
  idArgKeys.foldl (fun args key =>
    updateArg key (fun value => String.ofList (normalizeId tables value.toList)) args) args

/-! ## Defaults -/

def materializeDefaults (kind : ChangeSetOp) (verb : String) (args : OpArgs) : OpArgs :=
  if kind = .create then
    let args :=
      if verb = "create_function" ∨ verb = "create_type" then
        orInsertArg "visibility" "private" args
      else args
    if verb = "create_type" then orInsertArg "derive" "none" args else args
  else args

/-- The mark of an op that is still to be expanded. -/
def markInfer (kind : ChangeSetOp) (verb : String) (args : OpArgs) : OpArgs :=
  if kind = .infer ∧ startsWith verb "infer_" then orInsertArg "infer_pending" "true" args else args

/-! ## Payloads -/

/-- What the payloads take from outside: the hex digest of a text and the
hash of an op at its position. -/
structure Digests where
  textDigest : String → String
  blockHash : ChangeSetOp → Nat → BlockHash

variable (digests : Digests)

variable (idx : Nat)

def nodeAt : NodeRef := ⟨UInt32.ofNat idx⟩

variable (id : String)

def moduleNode : GraphNode := { id := nodeAt idx, kind := .module, name := id }

def typeNode : GraphNode :=
  { id := nodeAt idx, kind := .type, name := id,
    typeFacts := some ⟨String.ofList ((splitAtChar '.' id.toList).getLastD []), []⟩ }

def functionNode (args : OpArgs) : GraphNode :=
  { id := nodeAt idx, kind := .function, name := id,
    returnType := args.lookup "return",
    bodyExpr := args.lookup "body",
    runtimeChecks := (args.lookup "value").map fun value =>
      let predicate := "literal:i64=" ++ value
      [⟨predicate, digests.textDigest predicate⟩] }

def testNode (args : OpArgs) : GraphNode :=
  { id := nodeAt idx, kind := .test, name := id,
    returnType := some ((args.lookup "return").getD "Bool"),
    bodyExpr := args.lookup "body" }

def capabilityNode : GraphNode :=
  { id := nodeAt idx, kind := .capability, name := id, capabilityReqs := some ⟨[id]⟩ }

variable (verb : String)

def verbSuffix (stem : String) : String :=
  match stripFront (stem ++ "_") verb.toList with
  | some (c :: rest) => String.ofList (c :: rest)
  | _ => stem

def inferredValue : String :=
  (((args.lookup "type").or (args.lookup "effect")).or (args.lookup "value")).getD "pending"

def generatedSource : Option String :=
  ((args.lookup "from").or (args.lookup "language")).or (args.lookup "audience")

def assertionValue : String :=
  ((args.lookup "hash").or (args.lookup "value")).getD "true"

def workflowTarget : Option String :=
  ((args.lookup "target").or (args.lookup "from")).or (args.lookup "scope")

/-- An optional payload, `noop` where an argument is missing. -/
def orNoop (payload : Option OpPayload) : OpPayload := payload.getD .noop

def workflowPayload (state : WorkflowState) : OpPayload :=
  orNoop ((workflowTarget args).map fun target => .setWorkflowStateByName target state)

def targetAnd (key : String) : Option (String × String) :=
  (args.lookup "target").bind fun target => (args.lookup key).map fun value => (target, value)

/-- The first argument, in the order of the keys, that names no node. -/
def metadataArg : Option (String × String) :=
  args.find? fun entry => entry.1 ≠ "target" ∧ entry.1 ≠ "source" ∧ entry.1 ≠ "id"

def edgeKind (relation : String) : EdgeKind :=
  match relation with
  | "calls" => .calls
  | "reads" => .reads
  | "writes" => .writes
  | "emits" => .emits
  | "proves" => .proves
  | "breaks_if_changed" => .breaksIfChanged
  | _ => .dependsOn

def edgePayload (remove : Bool) : OpPayload :=
  match args.lookup "source", args.lookup "target" with
  | some source, some target =>
    let kind := ((args.lookup "relation").map edgeKind).getD .dependsOn
    if remove then .removeEdgeByName source target kind else .addEdgeByName source target kind
  | _, _ => .noop

def createPayload (verb : String) (args : OpArgs) : OpPayload :=
  if verb = "create_module" then
    orNoop ((args.lookup "id").map fun id => .createNode (moduleNode idx id))
  else if verb = "create_type" then
    orNoop ((args.lookup "id").map fun id => .createNode (typeNode idx id))
  else if verb = "create_function" then
    orNoop ((args.lookup "id").map fun id => .createNode (functionNode digests idx id args))
  else if verb = "create_test" then
    orNoop ((args.lookup "id").map fun id => .createNode (testNode idx id args))
  else if verb = "create_capability" then
    orNoop ((args.lookup "id").map fun id => .createNode (capabilityNode idx id))
  else .noop

/-- `set_*` without a payload of its own, and `replace_*`. -/
def metadataPayload : OpPayload :=
  orNoop ((args.lookup "target").bind fun target =>
    (metadataArg args).map fun entry => .setMetadataByName target entry.1 entry.2)

def setPayload (args : OpArgs) : OpPayload :=
  if verb = "set_return" then
    orNoop ((targetAnd args "type").map fun (target, ty) => .setReturnByName target ty)
  else if verb = "set_body" then
    orNoop ((targetAnd args "body").map fun (target, body) => .setBodyByName target body)
  else metadataPayload args

def addPayload (args : OpArgs) : OpPayload :=
  if verb = "add_param" then
    match args.lookup "target", args.lookup "name", args.lookup "type" with
    | some target, some name, some ty => .addParamByName target name ty
    | _, _, _ => .noop
  else if verb = "add_effect" then
    orNoop ((targetAnd args "effect").map fun (target, effect) => .addEffectByName target effect)
  else if verb = "add_contract" then
    match args.lookup "target", args.lookup "kind", args.lookup "rule" with
    | some target, some kind, some rule => .addContractByName target kind rule
    | _, _, _ => .noop
  else .noop

def removePayload (args : OpArgs) : OpPayload :=
  if verb = "remove_effect" then
    orNoop ((targetAnd args "effect").map fun (target, effect) => .removeEffectByName target effect)
  else if verb = "remove_contract" then
    orNoop ((targetAnd args "rule").map fun (target, rule) => .removeContractByName target rule)
  else if startsWith verb "remove_" then orNoop ((args.lookup "target").map .removeNodeByName)
  else .noop

def bindPayload : OpPayload :=
  match args.lookup "capability", args.lookup "handler" with
  | some capability, some handler =>
    .addBindingByName capability ⟨capability, handler, args.lookup "profile"⟩
  | _, _ => .noop

def annotatePayload : OpPayload :=
  match args.lookup "target", args.lookup "key", args.lookup "value" with
  | some target, some key, some value => .setMetadataByName target key value
  | _, _, _ => .noop

def materializePayload (kind : ChangeSetOp) (verb : String) (args : OpArgs) : OpPayload :=
  let withTarget (payload : String → OpPayload) : OpPayload :=
    orNoop ((args.lookup "target").map payload)
  match kind with
  | .create => createPayload digests idx verb args
  | .set => setPayload verb args
  | .replace => metadataPayload args
  | .add => addPayload verb args
  | .remove => removePayload verb args
  | .delete => withTarget .removeNodeByName
  | .rename => orNoop ((targetAnd args "name").map fun (target, name) =>
    .renameNodeByName target name)
  | .move => orNoop ((targetAnd args "to").map fun (target, value) =>
      .setMetadataByName target "module" value)
  | .connect => edgePayload args false
  | .disconnect => edgePayload args true
  | .grant => orNoop ((targetAnd args "capability").map fun (target, capability) =>
      .addCapabilityReqByName target capability)
  | .revoke => orNoop ((targetAnd args "capability").map fun (target, capability) =>
      .removeCapabilityReqByName target capability)
  | .expose => withTarget fun target => .setVisibilityByName target .pub
  | .hide => withTarget fun target => .setVisibilityByName target .priv
  | .bind => bindPayload args
  | .infer => withTarget fun target =>
      .addInferredFactByName target ⟨verbSuffix verb "infer", inferredValue args⟩
  | .derive => withTarget fun target => .addDerivedImplByName target (verbSuffix verb "derive")
  | .generate => withTarget fun target =>
      .addGeneratedArtifactByName target ⟨verbSuffix verb "generate", generatedSource args⟩
  | .assert => withTarget fun target =>
      .addAssertionByName target ⟨verbSuffix verb "assert", assertionValue args⟩
  | .lock => workflowPayload args .locked
  | .refactor => workflowPayload args .refactoring
  | .migrate => workflowPayload args .migrating
  | .approve => workflowPayload args .approved
  | .reject => workflowPayload args .rejected
  | .verify => workflowPayload args .verified
  | .deprecate => orNoop ((targetAnd args "replacement").map fun (target, value) =>
      .setMetadataByName target "deprecated_replacement" value)
  | .annotate => annotatePayload args

/-! ## Expansion of `infer_boundary` -/

def expandedOp (kind : ChangeSetOp) (verb target key value : String) (payload : OpPayload)
    (position : Nat) : CanonicalOp :=
  { kind, verb, args := insertArg "target" target (insertArg key value []), payload,
    blockHash := digests.blockHash kind position }

variable (ops : List CanonicalOp)

/-- What the functions created in the changeset return, the last one of a
name. -/
def declaredReturn (target : String) : Option String :=
  ops.reverse.findSome? fun op =>
    if op.kind = .create ∧ op.verb = "create_function" ∧ op.args.lookup "id" = some target then
      op.args.lookup "return"
    else none

def hasExplicitReturn (target : String) : Bool :=
  ops.any fun op =>
    op.kind = .set ∧ op.verb = "set_return" ∧ op.args.lookup "target" = some target

/-- One turn of the loop over the `infer_boundary` ops. -/
def expandOne (extra : List CanonicalOp) (op : CanonicalOp) : List CanonicalOp :=
  match op.args.lookup "target" with
  | none => extra
  | some target =>
    let baseIdx := ops.length + extra.length
    let returnTy :=
      if hasExplicitReturn ops target then none
      else (op.args.lookup "type").or (declaredReturn ops target)
    let extra := match returnTy with
      | some ty => extra ++ [expandedOp digests .set "set_return" target "type" ty
          (.setReturnByName target ty) baseIdx]
      | none => extra
    match op.args.lookup "effect" with
    | some effect => extra ++ [expandedOp digests .add "add_effect" target "effect" effect
        (.addEffectByName target effect) (baseIdx + extra.length)]
    | none => extra

def expandInferBoundary : List CanonicalOp :=
  ops ++ (ops.filter fun op => op.kind = .infer ∧ op.verb = "infer_boundary").foldl
    (expandOne digests ops) []

/-! ## Migration -/

def currentAclVersion : String := "1.0"

/-- Rename a verb, and a key unless its new name is taken. -/
def migrateOp (verbs : List (String × String)) (oldKey newKey : String) (op : ParsedOp) :
    ParsedOp :=
  let args := op.args.filter (·.1 ≠ oldKey)
  { op with
    verb := (verbs.lookup op.verb).getD op.verb
    args := match op.args.lookup oldKey with
      | some value => orInsertArg newKey value args
      | none => args }

/-- The migrators, oldest first: from, to, and what they do to an op. -/
def migratorChain : List (String × String × (ParsedOp → ParsedOp)) :=
  [("0.9", "1.0", migrateOp [("create_fn", "create_function"), ("add_field", "add_param")]
    "typ" "type"),
    ("1.0", "1.1", migrateOp [("set_field", "set_return")] "return_type" "type")]

/-- `run_migration_chain`; the error is the version without a migrator.
No version repeats along the chain, so its length bounds the steps. -/
def runMigrationChain (target : String) : Nat → ParsedChangeSet → Except String ParsedChangeSet
  | steps, pcs =>
    if pcs.aclVersion = target then .ok pcs
    else match steps, migratorChain.find? (·.1 = pcs.aclVersion) with
      | steps + 1, some (_, version, migrate) =>
        runMigrationChain target steps
          { pcs with parsedOps := pcs.parsedOps.map migrate, aclVersion := version }
      | _, _ => .error pcs.aclVersion

/-! ## Canonicalization -/

/-- The phases of the canonical order. -/
def phaseOrder : ChangeSetOp → Nat
  | .create => 0
  | .set | .add | .remove | .delete | .disconnect | .rename | .move | .replace => 1
  | .connect | .bind | .expose | .hide | .grant | .revoke => 2
  | .infer | .derive | .generate => 3
  | .assert | .lock | .refactor | .migrate | .approve | .reject | .deprecate | .annotate
  | .verify => 4

def canonicalOp (op : ParsedOp) : CanonicalOp :=
  let args := markInfer op.kind op.verb
    (materializeDefaults op.kind op.verb (normalizeOpArgs tables op.args))
  { kind := op.kind, verb := op.verb, args,
    payload := materializePayload digests idx op.kind op.verb args,
    blockHash := digests.blockHash op.kind idx }

/-- The stable sort by phase. -/
def sortByPhase (ops : List ParsedOp) : List ParsedOp :=
  ops.insertionSort fun a b => phaseOrder a.kind ≤ phaseOrder b.kind

def canonicalOps (ops : List ParsedOp) : List CanonicalOp :=
  expandInferBoundary digests ((sortByPhase ops).mapIdx (canonicalOp tables digests))

def canonicalizeParsedInner (pcs : ParsedChangeSet) : CanonicalChangeSet :=
  { metadata := ⟨pcs.author,
      if pcs.description = "" then "<no description>" else pcs.description, pcs.timestamp⟩
    baseSnapshotId := pcs.baseSnapshotId
    preconditions := pcs.preconditions
    ops := canonicalOps tables digests pcs.parsedOps }

def tryCanonicalizeParsed (pcs : ParsedChangeSet) : Except String CanonicalChangeSet :=
  (runMigrationChain currentAclVersion migratorChain.length pcs).map
    (canonicalizeParsedInner tables digests)

end Ail.Change
