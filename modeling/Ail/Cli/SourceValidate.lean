import Ail.Change.ParserFacts
import Ail.Cli.SourceScope

/-!
# Validation of source programs

The passes a combined program goes through before it is returned
(`source_commands/validate.rs`): grants are resolved to the items they
name, declarations are distinct, grants and calls refer to declarations,
and an item performs an effect only under a grant.

Bodies are texts, and each pass takes a call apart again. A written call
does not always give its arguments back: a comparison hides the comma
behind it (`splitSourceArgs_joined_iff`). `LoweredExpr` is what lowering
writes: words, string literals, types and calls. There nothing nested in
a body is hidden from a pass; `collected_of_occurs` is the effect pass.

The positions in the errors are left out, and so is what only the parser
reports.
-/

namespace Ail.Cli

open Ail.Core Change Lib List

/-- A program with its module name and its imports, as a file has it. -/
structure SourceUnit extends SourceProgram where
  module : Option (List Char) := none
  imports : List (List Char) := []
  deriving DecidableEq

variable (unit : SourceUnit)

def SourceUnit.extend (other : SourceUnit) : SourceUnit :=
  { unit with
    imports := unit.imports ++ other.imports
    capabilities := unit.capabilities ++ other.capabilities
    constants := unit.constants ++ other.constants
    functions := unit.functions ++ other.functions
    tests := unit.tests ++ other.tests
    grants := unit.grants ++ other.grants }

/-! ## Errors -/

inductive DeclarationKind where
  | const
  | declaration
  | function
  | test
  deriving DecidableEq

inductive SourceError where
  | unresolved (path : List Char)
  | unreadable (path : List Char)
  | parse (message : String)
  | duplicateCapability (name : List Char)
  | duplicate (kind : DeclarationKind) (name : List Char)
  | builtinShadow (kind : DeclarationKind) (name builtin : List Char)
  | grantAmbiguous (target : List Char)
  | grantTargetUnknown (target : List Char)
  | grantCapabilityUnknown (capability : List Char)
  | callArity (message : String)
  | unknownFunction (call : List Char)
  | variables (message : String)
  | effectConst (target capability : List Char)
  | effectGrantMissing (target capability : List Char)
  | effectCapabilityUnknown (context capability : List Char)
  | effectCallShape
  | types (message : String)
  deriving DecidableEq

def DeclarationKind.text : DeclarationKind → String
  | .const => "const"
  | .declaration => "declaration"
  | .function => "function"
  | .test => "test"

def quoted (name : List Char) : String := "`" ++ String.ofList name ++ "`"

def diagnostic (code category message : String) : String :=
  message ++ " [" ++ code ++ "] category=" ++ category

def SourceError.message : SourceError → String
  | .unresolved path => "failed to resolve AIL source " ++ String.ofList path
  | .unreadable path => "failed to read AIL source " ++ String.ofList path
  | .parse message => message
  | .duplicateCapability name =>
    diagnostic "AIL_SOURCE_SYMBOL_DUPLICATE" "source.symbol.duplicate"
      ("duplicate capability declaration " ++ quoted name)
  | .duplicate kind name =>
    diagnostic "AIL_SOURCE_SYMBOL_DUPLICATE" "source.symbol.duplicate"
      ("duplicate imported source " ++ kind.text ++ " " ++ quoted name)
  | .builtinShadow kind name builtin =>
    diagnostic "AIL_SOURCE_SYMBOL_BUILTIN_SHADOW" "source.symbol.builtin_shadow"
      (kind.text ++ " declaration " ++ quoted name ++ " shadows builtin " ++ quoted builtin)
  | .grantAmbiguous target =>
    diagnostic "AIL_SOURCE_GRANT_TARGET_AMBIGUOUS" "source.grant.ambiguous_target"
      ("grant target " ++ quoted target ++ " is ambiguous; use " ++
        quoted ("fn.".toList ++ target) ++ " or " ++ quoted ("test.".toList ++ target))
  | .grantTargetUnknown target =>
    diagnostic "AIL_SOURCE_GRANT_TARGET_UNKNOWN" "source.grant.target"
      ("grant target " ++ quoted target ++ " is not declared as a function or test")
  | .grantCapabilityUnknown capability =>
    diagnostic "AIL_SOURCE_GRANT_CAPABILITY_UNKNOWN" "source.grant.capability"
      ("grant capability " ++ quoted capability ++ " is not declared")
  | .callArity message => diagnostic "AIL_SOURCE_CALL_ARITY" "source.call.arity" message
  | .unknownFunction call =>
    diagnostic "AIL_SOURCE_NAME_UNKNOWN_FUNCTION" "source.name.function"
      ("unknown function call " ++ quoted call ++ " in AIL source")
  | .variables message => message
  | .effectConst target capability =>
    diagnostic "AIL_SOURCE_EFFECT_CONST" "source.effect.const"
      ("source const " ++ quoted target ++ " uses capability " ++ quoted capability ++
        "; const declarations must be effect-free")
  | .effectGrantMissing target capability =>
    diagnostic "AIL_SOURCE_EFFECT_GRANT_MISSING" "source.effect.grant"
      ("source item " ++ quoted target ++ " uses capability " ++ quoted capability ++
        " without a grant")
  | .effectCapabilityUnknown context capability =>
    diagnostic "AIL_SOURCE_EFFECT_CAPABILITY_UNKNOWN" "source.effect.capability"
      (String.ofList context ++ " capability " ++ quoted capability ++ " is not declared")
  | .effectCallShape =>
    diagnostic "AIL_SOURCE_EFFECT_CALL_SHAPE" "source.effect.call_shape"
      "effect_call capability and operation must be identifiers"
  | .types message => message

/-! ## Grants -/

def normalizeName (front : String) (name : List Char) : List Char :=
  if (stripFront front name).isSome then name else front.toList ++ name

def normalizeFunctionName (name : List Char) : List Char := normalizeName "fn." name

def normalizeTestName (name : List Char) : List Char := normalizeName "test." name

def qualifySourceName (name : List Char) (front : String) (module : List Char) : List Char :=
  match stripFront front name with
  | none => name
  | some bare => if '.' ∈ bare then name else front.toList ++ module ++ '.' :: bare

def qualifySourceNameForModule (name : List Char) (front : String) (module : Option (List Char)) :
    List Char :=
  module.elim name (qualifySourceName name front)

variable (target : List Char)

def defaultSourceGrantTarget (module : Option (List Char)) : List Char :=
  if (stripFront "fn." target).isSome then qualifySourceNameForModule target "fn." module
  else if (stripFront "test." target).isSome then qualifySourceNameForModule target "test." module
  else qualifySourceNameForModule (normalizeFunctionName target) "fn." module

/-- The declared items a grant may be meant for. -/
def grantCandidates (module : Option (List Char)) (functions tests : List (List Char)) :
    List (List Char) :=
  if (stripFront "fn." target).isSome then
    [qualifySourceNameForModule target "fn." module].filter (· ∈ functions)
  else if (stripFront "test." target).isSome then
    [qualifySourceNameForModule target "test." module].filter (· ∈ tests)
  else
    ([qualifySourceNameForModule (normalizeFunctionName target) "fn." module].filter
        (· ∈ functions) ++
      [qualifySourceNameForModule (normalizeTestName target) "test." module].filter
        (· ∈ tests)).dedup

def resolveSourceGrantTarget (module : Option (List Char)) (functions tests : List (List Char)) :
    Except SourceError (List Char) :=
  if (stripFront "fn." target).isSome ∧ target ∈ functions then .ok target
  else if (stripFront "fn." target).isNone ∧ (stripFront "test." target).isSome ∧
    target ∈ tests then
    .ok target
  else
    match grantCandidates target module functions tests with
    | [] => .ok (defaultSourceGrantTarget target module)
    | [candidate] => .ok candidate
    | _ => .error (.grantAmbiguous target)

def resolveSourceProgramGrants : Except SourceError SourceUnit := do
  let grants ← unit.grants.mapM fun grant => do
    let target ← resolveSourceGrantTarget grant.target unit.module
      (unit.functions.map (·.name)) (unit.tests.map (·.name))
    .ok { grant with target }
  .ok { unit with grants }

def validateSourceProgramGrants : Except SourceError Unit :=
  unit.grants.forM fun grant =>
    if grant.target ∉ unit.functions.map (·.name) ++ unit.tests.map (·.name) then
      .error (.grantTargetUnknown grant.target)
    else if grant.capability ∉ unit.capabilities then
      .error (.grantCapabilityUnknown grant.capability)
    else .ok ()

/-! ## Calls -/

inductive SourceArity where
  | exact (expected : Nat)
  | min (expected : Nat)
  | even
  | any
  | match

def builtinArities : List (SourceArity × List String) :=
  [(.exact 2, ["add", "sub", "mul", "div", "mod", "signed_mod", "eq", "ne", "gt", "ge", "lt", "le",
      "and", "or", "concat", "int.min", "int.max", "int.abs_or", "int.neg_or",
      "int.saturating_add", "int.saturating_sub", "int.saturating_mul", "int.wrapping_add",
      "int.wrapping_sub", "int.wrapping_mul", "int_min", "int_max", "int_abs_or", "int_neg_or",
      "int_saturating_add", "int_saturating_sub", "int_saturating_mul", "int_wrapping_add",
      "int_wrapping_sub", "int_wrapping_mul", "int.bit_and", "int.bit_or", "int.bit_xor",
      "int.shift_left", "int.shift_right", "int.shift_right_unsigned", "int_bit_and",
      "int_bit_or", "int_bit_xor", "int_shift_left", "int_shift_right",
      "int_shift_right_unsigned"]),
    (.exact 1, ["int.saturating_neg", "int.wrapping_neg", "int.bit_not", "int_saturating_neg",
      "int_wrapping_neg", "int_bit_not"]),
    (.exact 2, ["text.contains", "text.ends_with", "text.index_of", "text.starts_with",
      "text_contains", "text_ends_with", "text_index_of", "text_starts_with", "text.eq", "text_eq",
      "text.parse_int_or", "text_parse_int_or"]),
    (.exact 3, ["text.byte_at_or", "text_byte_at_or", "text.replace_first", "text_replace_first",
      "text.slice", "text_slice", "int.clamp", "int.add_or", "int.div_or", "int.rem_or",
      "int.sub_or", "int.mul_or", "int_clamp", "int_add_or", "int_sub_or", "int_mul_or",
      "int_div_or", "int_rem_or", "map.insert", "map_insert"]),
    (.exact 2, ["fs.write", "fs_write", "std.fs.write", "env.set", "env_set", "std.env.set",
      "field", "index", "list.get", "list_get", "list.push", "list_push", "list.concat",
      "list_concat", "queue.push_back", "queue_push_back", "set.contains", "set_contains",
      "set.insert", "set_insert", "map.get", "map_get", "map.contains_key", "map_contains_key",
      "unwrap_or", "option.unwrap_or", "option_unwrap_or", "result.unwrap_or", "result_unwrap_or",
      "ok_or", "option.ok_or", "option_ok_or", "first_or", "last_or", "time.duration_since",
      "time_duration_since", "std.time.duration_since", "time.add_duration", "time_add_duration",
      "std.time.add_duration", "bytes.at", "bytes_at", "std.bytes.at", "bytes.concat",
      "bytes_concat", "std.bytes.concat"]),
    (.exact 3, ["bytes.slice", "bytes_slice", "std.bytes.slice"]),
    (.exact 2, ["tuple.get", "tuple_get"]),
    (.exact 3, ["get_or", "update"]),
    (.exact 0, ["unit", "none", "None", "env.list", "env_list", "std.env.list", "time.now",
      "time_now", "std.time.now", "random.next_int", "random_next_int", "std.random.next_int"]),
    (.exact 1, ["not", "len", "text.len", "text.length", "text_length", "list.length",
      "list_length", "print", "log.write", "log_write", "text.trim", "text_trim", "Var",
      "is_empty", "text.is_empty", "text_is_empty", "list.is_empty", "list_is_empty",
      "queue.pop_front", "queue_pop_front", "queue.peek_front", "queue_peek_front",
      "queue.length", "queue_length", "queue.is_empty", "queue_is_empty", "set.length",
      "set_length", "map.length", "map_length", "fs.read_file", "fs_read_file",
      "std.fs.read_file", "fs.delete", "fs_delete", "std.fs.delete", "fs.list", "fs_list",
      "std.fs.list", "env.get", "env_get", "std.env.get", "json.parse", "json_parse",
      "std.json.parse", "json.stringify", "json_stringify", "std.json.stringify",
      "path.from_text", "path_from_text", "std.path.from_text", "path.to_text", "path_to_text",
      "std.path.to_text", "numeric.narrow_to_i32", "numeric_narrow_to_i32",
      "std.numeric.narrow_to_i32", "numeric.narrow_to_u32", "numeric_narrow_to_u32",
      "std.numeric.narrow_to_u32", "numeric.narrow_to_u64", "numeric_narrow_to_u64",
      "std.numeric.narrow_to_u64", "numeric.narrow_to_i16", "numeric_narrow_to_i16",
      "std.numeric.narrow_to_i16", "numeric.narrow_to_u8", "numeric_narrow_to_u8",
      "std.numeric.narrow_to_u8", "is_some", "is_none", "is_ok", "is_err", "option.is_some",
      "option_is_some", "option.is_none", "option_is_none", "result.is_ok", "result_is_ok",
      "result.is_err", "result_is_err", "tuple.length", "tuple_length", "tuple.first",
      "tuple_first", "tuple.second", "tuple_second", "time.instant_to_ms", "time_instant_to_ms",
      "std.time.instant_to_ms", "bytes.length", "bytes_length", "std.bytes.length", "bytes.empty",
      "bytes_empty", "std.bytes.empty", "some", "Some", "ok", "Ok", "err", "Err"]),
    (.exact 3, ["if", "let", "fold"]),
    (.exact 5, ["let_typed"]),
    (.min 2, ["effect_call"]),
    (.even, ["record"]),
    (.any, ["map", "tuple", "list", "set"]),
    (.match, ["match"])]

variable (call : List Char)

def knownSourceBuiltinArity : Option SourceArity :=
  (builtinArities.find? fun entry => entry.2.contains (String.ofList call)).map (·.1)

/-- Every call of a body with its number of arguments; the patterns of a
`match` are none. -/
def collectSourceCalls : Nat → List Char → List (List Char × Nat)
  | 0, _ => []
  | fuel + 1, expr =>
    match parseSourceCall expr with
    | none => []
    | some (func, args) =>
      (func, args.length) ::
        if func = "match".toList then
          (args.zipIdx.filter fun arg => arg.2 % 2 = 0).flatMap fun arg =>
            collectSourceCalls fuel arg.1
        else args.flatMap fun arg => collectSourceCalls fuel arg

def callSubject : String := "function call " ++ quoted call ++ " expects "

def validateSourceCallArity (actual : Nat) : SourceArity → Except SourceError Unit
  | .exact expected =>
    if actual ≠ expected then
      .error (.callArity (callSubject call ++ toString expected ++ " argument(s), got " ++
        toString actual))
    else .ok ()
  | .min expected =>
    if actual < expected then
      .error (.callArity (callSubject call ++ "at least " ++ toString expected ++
        " argument(s), got " ++ toString actual))
    else .ok ()
  | .even =>
    if actual % 2 ≠ 0 then
      .error (.callArity (callSubject call ++ "an even number of arguments, got " ++
        toString actual))
    else .ok ()
  | .match =>
    if actual < 3 ∨ actual % 2 = 0 then
      .error (.callArity (callSubject call ++ "a scrutinee plus pattern/body pairs, got " ++
        toString actual ++ " argument(s)"))
    else .ok ()
  | .any => .ok ()

variable (functions : List (List Char × Nat))

/-- The number of parameters of what a call names; a later declaration
of a name wins. -/
def sourceFunctionArity (call : List Char) : Option Nat :=
  functions.reverse.lookup (normalizeFunctionName call)

def validateSourceExprCalls (expr : List Char) : Except SourceError Unit :=
  (collectSourceCalls (expr.length + 1) expr).forM fun call =>
    match knownSourceBuiltinArity call.1 with
    | some arity => validateSourceCallArity call.1 call.2 arity
    | none =>
      match sourceFunctionArity functions call.1 with
      | some expected => validateSourceCallArity call.1 call.2 (.exact expected)
      | none => .error (.unknownFunction call.1)

/-- The check of the variables of a body, under the names in scope and
the constants. -/
abbrev VariableCheck :=
  List (List Char) → List (List Char × List Char) → List Char → Except SourceError Unit

def validateSourceProgramCalls (validateVars : VariableCheck) (unit : SourceUnit) :
    Except SourceError Unit :=
  let functions := (unit.functions.map fun function => (function.name, function.params.length)) ++
    unit.constants.map fun constant => (constant.name, 0)
  let constants := sourceConstantNames unit.toSourceProgram
  unit.bodies.forM fun body => do
    validateSourceExprCalls functions body.2
    validateVars body.1 constants body.2

/-! ## Declarations -/

/-- The first name that was seen before. -/
def duplicateName (seen : List (List Char)) : List (List Char) → Option (List Char)
  | [] => none
  | name :: names => if name ∈ seen then some name else duplicateName (name :: seen) names

def contextualBuiltinNames : List (List Char) :=
  ["some".toList, "Some".toList, "none".toList, "None".toList, "ok".toList, "Ok".toList,
    "err".toList, "Err".toList, "unit".toList]

def sourceFunctionBuiltinShadow (name : List Char) : Option (List Char) :=
  (stripFront "fn." name).bind fun rest =>
    (splitAtChar '.' rest).getLast?.bind fun bare =>
      if bare ∈ contextualBuiltinNames then none
      else (knownSourceBuiltinArity bare).map fun _ => bare

def rejectSome {α : Type} (found : Option α) (failure : α → SourceError) :
    Except SourceError Unit :=
  found.elim (.ok ()) fun a => .error (failure a)

def rejectBuiltinShadow (kind : DeclarationKind) (name : List Char) : Except SourceError Unit :=
  rejectSome (sourceFunctionBuiltinShadow name) (.builtinShadow kind name)

def validateSourceProgramSymbols : Except SourceError Unit := do
  rejectSome (duplicateName [] unit.capabilities) .duplicateCapability
  rejectSome (duplicateName [] (unit.constants.map (·.name))) (.duplicate .const)
  rejectSome ((unit.constants.map (·.name)).find? (· ∈ unit.functions.map (·.name)))
    (.duplicate .declaration)
  rejectSome (duplicateName [] (unit.functions.map (·.name))) (.duplicate .function)
  rejectSome (duplicateName [] (unit.tests.map (·.name))) (.duplicate .test)
  unit.constants.forM fun constant => rejectBuiltinShadow .const constant.name
  unit.functions.forM fun function => rejectBuiltinShadow .function function.name

/-! ## Effects -/

def logCapability : List Char := "log.write".toList

def logNames : List (List Char) := ["print".toList, "log.write".toList, "log_write".toList]

def validateDeclaredSourceEffectCapability (capabilities : List (List Char))
    (capability context : List Char) : Except SourceError Unit :=
  if capability ∈ capabilities then .ok () else .error (.effectCapabilityUnknown context capability)

/-- The capability and the operation an effect call names, and its
arguments. -/
def effectCallParts (func : List Char) :
    List (List Char) → Option (List Char × List Char × List (List Char))
  | capability :: operation :: rest =>
    if func = "effect_call".toList then some (capability, operation, rest) else none
  | _ => none

/-- What a call uses if it writes to the log. -/
def loggedEffect (capabilities : List (List Char)) (func : List Char) :
    Except SourceError (List (List Char)) :=
  if func ∈ logNames then do
    validateDeclaredSourceEffectCapability capabilities logCapability func
    .ok [logCapability]
  else .ok []

/-- The capabilities a body uses; the arguments of a call are shorter
than the call, which bounds the recursion. -/
def collectSourceDirectEffectCapabilities (capabilities : List (List Char)) :
    Nat → List Char → Except SourceError (List (List Char))
  | 0, _ => .ok []
  | fuel + 1, expr =>
    match parseSourceCall expr with
    | none => .ok []
    | some (func, args) => do
      let logged ← loggedEffect capabilities func
      match effectCallParts func args with
      | some (capability, operation, rest) =>
        if !isSourceIdent capability || !isSourceIdent operation then .error .effectCallShape
        else do
          validateDeclaredSourceEffectCapability capabilities capability "effect_call".toList
          let inner ← rest.mapM fun arg =>
            collectSourceDirectEffectCapabilities capabilities fuel arg
          .ok (logged ++ capability :: inner.flatten)
      | none => do
        let inner ← args.mapM fun arg =>
          collectSourceDirectEffectCapabilities capabilities fuel arg
        .ok (logged ++ inner.flatten)

/-- The capabilities a body uses, in the order of the set they are
collected in. -/
def directEffects (capabilities : List (List Char)) (body : List Char) :
    Except SourceError (List (List Char)) := do
  let effects ← collectSourceDirectEffectCapabilities capabilities (body.length + 1) body
  .ok (effects.insertionSort (· ≤ ·))

def validateSourceConstEffectFree (capabilities : List (List Char)) (target body : List Char) :
    Except SourceError Unit := do
  let effects ← directEffects capabilities body
  rejectSome effects.head? (.effectConst target)

/-- The capabilities granted to an item. -/
def sourceGrantsByTarget : List (List Char) :=
  (unit.grants.filter fun grant => grant.target = target).map (·.capability)

def validateSourceItemEffectGrants (capabilities : List (List Char)) (granted : List (List Char))
    (target body : List Char) : Except SourceError Unit := do
  let effects ← directEffects capabilities body
  rejectSome (effects.find? (· ∉ granted)) (.effectGrantMissing target)

/-- The functions and the tests of a program, which may be granted a
capability, with their bodies. -/
def SourceProgram.items (program : SourceProgram) : List (List Char × List Char) :=
  (program.functions.map fun function => (function.name, function.body)) ++
    program.tests.map fun test => (test.name, test.body)

def validateSourceProgramEffectCalls : Except SourceError Unit := do
  unit.constants.forM fun constant =>
    validateSourceConstEffectFree unit.capabilities constant.name constant.body
  unit.items.forM fun item =>
    validateSourceItemEffectGrants unit.capabilities (sourceGrantsByTarget unit item.1)
      item.1 item.2

/-! ## What a body performs -/

/-- A text nested in a body, as an argument of its calls. -/
inductive Occurs (sub : List Char) : List Char → Prop where
  | here : Occurs sub sub
  | arg {text func arg : List Char} {args : List (List Char)}
      (hcall : parseSourceCall text = some (func, args)) (hmem : arg ∈ args)
      (hsub : Occurs sub arg) : Occurs sub text

/-- The capability a call uses by itself. -/
def performs (text : List Char) : Option (List Char) :=
  (parseSourceCall text).bind fun call =>
    if call.1 ∈ logNames then some logCapability
    else (effectCallParts call.1 call.2).map (·.1)

variable {name func text contents sub capability : List Char}
  {args texts capabilities effects : List (List Char)} {ch : Char} {prevWasEscape : Bool}

/-- A name is no call. -/
theorem parseSourceCall_of_isSourceIdent (hname : isSourceIdent name = true) :
    parseSourceCall name = none := by
  have hnot : '(' ∉ trim name := fun h =>
    not_mem_of_isSourceIdent hname ((trim_isInfix name).subset h)
  simp [parseSourceCall, splitOnce_eq_none_iff.2 hnot]

theorem eq_of_occurs_of_isSourceIdent (hname : isSourceIdent name = true)
    (hoccurs : Occurs sub name) : sub = name := by
  cases hoccurs with
  | here => rfl
  | arg hcall =>
    rw [parseSourceCall_of_isSourceIdent hname] at hcall
    cases hcall

/-- A name performs no effect. -/
theorem performs_of_isSourceIdent (hname : isSourceIdent name = true) : performs name = none := by
  rw [performs, parseSourceCall_of_isSourceIdent hname]
  rfl

theorem effectCallParts_eq_some {operation : List Char} {rest : List (List Char)}
    (hparts : effectCallParts func args = some (capability, operation, rest)) :
    func = "effect_call".toList ∧ args = capability :: operation :: rest := by
  unfold effectCallParts at hparts
  split at hparts
  · split at hparts
    next hfunc =>
      cases hparts
      exact ⟨hfunc, rfl⟩
    · cases hparts
  · cases hparts

theorem declared_of_eq_ok {context : List Char} {u : Unit}
    (hdeclared : validateDeclaredSourceEffectCapability capabilities capability context = .ok u) :
    capability ∈ capabilities := by
  unfold validateDeclaredSourceEffectCapability at hdeclared
  split at hdeclared
  next hmem => exact hmem
  next => cases hdeclared

/-- What the collector does at a call. -/
theorem collect_call {fuel : Nat} (hcall : parseSourceCall text = some (func, args))
    (hcollect : collectSourceDirectEffectCapabilities capabilities (fuel + 1) text = .ok effects) :
    (func ∈ logNames → logCapability ∈ effects ∧ logCapability ∈ capabilities) ∧
    (∀ capability operation rest, effectCallParts func args = some (capability, operation, rest) →
      capability ∈ effects ∧ capability ∈ capabilities) ∧
    ∀ arg ∈ args, isSourceIdent arg = true ∨
      ∃ inner, collectSourceDirectEffectCapabilities capabilities fuel arg = .ok inner ∧
        inner ⊆ effects := by
  unfold collectSourceDirectEffectCapabilities at hcollect
  simp only [hcall] at hcollect
  obtain ⟨logged, hlogged, hcollect⟩ := bind_eq_ok.1 hcollect
  have hlog : func ∈ logNames → logCapability ∈ logged ∧ logCapability ∈ capabilities := by
    intro hfunc
    rw [loggedEffect, if_pos hfunc] at hlogged
    obtain ⟨_, hdeclared, hok⟩ := bind_eq_ok.1 hlogged
    cases hok
    exact ⟨.head _, declared_of_eq_ok hdeclared⟩
  have hinner : ∀ {list inner : List (List Char)} {lists : List (List (List Char))},
      (list.mapM fun arg => collectSourceDirectEffectCapabilities capabilities fuel arg) =
        .ok lists →
      lists.flatten ⊆ inner → ∀ arg ∈ list,
      ∃ one, collectSourceDirectEffectCapabilities capabilities fuel arg = .ok one ∧
        one ⊆ inner := by
    intro list inner lists hmap hsub arg harg
    obtain ⟨one, hone, heq⟩ := exists_mem_of_mem_of_mapM_eq_ok hmap harg
    exact ⟨one, heq, fun c hc => hsub (mem_flatten.2 ⟨one, hone, hc⟩)⟩
  split at hcollect
  next capability operation rest hparts =>
    split at hcollect
    next => cases hcollect
    next hshape =>
      obtain ⟨_, hdeclared, hcollect⟩ := bind_eq_ok.1 hcollect
      obtain ⟨lists, hmap, hok⟩ := bind_eq_ok.1 hcollect
      cases hok
      obtain ⟨hfunc, rfl⟩ := effectCallParts_eq_some hparts
      simp only [Bool.or_eq_true, Bool.not_eq_true', not_or, Bool.not_eq_false] at hshape
      refine ⟨fun h => ⟨mem_append_left _ (hlog h).1, (hlog h).2⟩, ?_, ?_⟩
      · intro capability' operation' rest' hparts'
        rw [hparts] at hparts'
        cases hparts'
        exact ⟨mem_append_right _ (.head _), declared_of_eq_ok hdeclared⟩
      · intro arg harg
        rcases mem_cons.1 harg with rfl | harg
        · exact .inl hshape.1
        rcases mem_cons.1 harg with rfl | harg
        · exact .inl hshape.2
        · refine .inr (hinner hmap (fun c hc => ?_) arg harg)
          exact mem_append_right _ (.tail _ hc)
  next hparts =>
    obtain ⟨lists, hmap, hok⟩ := bind_eq_ok.1 hcollect
    cases hok
    refine ⟨fun h => ⟨mem_append_left _ (hlog h).1, (hlog h).2⟩, ?_, ?_⟩
    · intro capability operation rest hsome
      rw [hparts] at hsome
      cases hsome
    · exact fun arg harg => .inr (hinner hmap (fun c hc => mem_append_right _ hc) arg harg)

/-- Whatever a body performs, however deep, is collected and declared. -/
theorem collected_of_occurs (hoccurs : Occurs sub text) (hperforms : performs sub = some capability)
    {fuel : Nat} (hfuel : text.length < fuel)
    (hcollect : collectSourceDirectEffectCapabilities capabilities fuel text = .ok effects) :
    capability ∈ effects ∧ capability ∈ capabilities := by
  induction hoccurs generalizing fuel effects with
  | here =>
    obtain ⟨fuel, rfl⟩ := Nat.exists_eq_succ_of_ne_zero (Nat.ne_of_gt (Nat.zero_lt_of_lt hfuel))
    obtain ⟨⟨func, args⟩, hcall, hperforms⟩ := Option.bind_eq_some_iff.1 hperforms
    obtain ⟨hlog, heffect, -⟩ := collect_call hcall hcollect
    split at hperforms
    next hfunc =>
      cases hperforms
      exact hlog hfunc
    next =>
      obtain ⟨⟨_, operation, rest⟩, hparts, rfl⟩ := Option.map_eq_some_iff.1 hperforms
      exact heffect _ operation rest hparts
  | @arg text func arg args hcall hmem hsub ih =>
    obtain ⟨fuel, rfl⟩ := Nat.exists_eq_succ_of_ne_zero (Nat.ne_of_gt (Nat.zero_lt_of_lt hfuel))
    have hshorter := length_lt_of_parseSourceCall hcall hmem
    rcases (collect_call hcall hcollect).2.2 arg hmem with hident | ⟨inner, hinner, hsubset⟩
    · rw [eq_of_occurs_of_isSourceIdent hident hsub, performs_of_isSourceIdent hident] at hperforms
      cases hperforms
    · obtain ⟨hin, hdeclared⟩ := @ih inner fuel (by omega) hinner
      exact ⟨hsubset hin, hdeclared⟩

theorem forM_eq_ok {α ε : Type} {f : α → Except ε Unit} {as : List α}
    (h : as.forM f = .ok ()) : ∀ a ∈ as, f a = .ok () := by
  induction as with
  | nil => exact fun a ha => by cases ha
  | cons a as ih =>
    obtain ⟨_, hhead, htail⟩ := (bind_eq_ok (m := f a) (f := fun _ => as.forM f)).1 h
    intro b hb
    rcases mem_cons.1 hb with rfl | hb
    · exact hhead
    · exact ih htail b hb

theorem rejectSome_eq_ok {α : Type} {found : Option α} {failure : α → SourceError}
    (h : rejectSome found failure = .ok ()) : found = none := by
  cases found with
  | none => rfl
  | some a => cases h

/-- A program that passes performs an effect only in an item with the
grant, and none in a constant. -/
theorem validateSourceProgramEffectCalls_sound {unit : SourceUnit}
    (hvalid : validateSourceProgramEffectCalls unit = .ok ())
    (hperforms : performs sub = some capability) :
    (∀ item ∈ unit.items, Occurs sub item.2 →
      capability ∈ unit.capabilities ∧ ⟨item.1, capability⟩ ∈ unit.grants) ∧
    ∀ constant ∈ unit.constants, ¬ Occurs sub constant.body := by
  obtain ⟨_, hconstants, hitems⟩ := bind_eq_ok.1 hvalid
  have hcollected : ∀ body effects, directEffects unit.capabilities body = .ok effects →
      Occurs sub body → capability ∈ effects ∧ capability ∈ unit.capabilities := by
    intro body effects heffects hoccurs
    obtain ⟨collected, hcollect, hok⟩ := bind_eq_ok.1 heffects
    cases hok
    rw [mem_insertionSort]
    exact collected_of_occurs hoccurs hperforms (Nat.lt_add_one _) hcollect
  refine ⟨fun item hitem hoccurs => ?_, fun constant hconstant hoccurs => ?_⟩
  · obtain ⟨effects, heffects, hfree⟩ := bind_eq_ok.1 (forM_eq_ok hitems item hitem)
    obtain ⟨hin, hdeclared⟩ := hcollected item.2 effects heffects hoccurs
    have hfound := find?_eq_none.1 (rejectSome_eq_ok hfree) capability hin
    have hgranted : capability ∈ sourceGrantsByTarget unit item.1 :=
      Decidable.not_not.1 fun h => hfound (decide_eq_true h)
    simp only [sourceGrantsByTarget, mem_map, mem_filter, decide_eq_true_eq] at hgranted
    obtain ⟨grant, ⟨hgrant, htarget⟩, hcapability⟩ := hgranted
    refine ⟨hdeclared, ?_⟩
    rw [← htarget, ← hcapability]
    exact hgrant
  · obtain ⟨effects, heffects, hfree⟩ := bind_eq_ok.1 (forM_eq_ok hconstants constant hconstant)
    obtain ⟨hin, -⟩ := hcollected constant.body effects heffects hoccurs
    rw [head?_eq_none_iff.1 (rejectSome_eq_ok hfree)] at hin
    cases hin

/-! ## What lowering writes -/

/-- A lowered expression: a word (a name, a number, a keyword, a bare
pattern), a string literal with its escapes, a type with arguments, or a
call. -/
inductive LoweredExpr where
  | word (text : List Char)
  | literal (contents : List Char)
  | generic (name : List Char) (args : List LoweredExpr)
  | call (func : List Char) (args : List LoweredExpr)

/-- `is_source_string_literal`: only quotes and backslashes are escaped,
and no quote stands bare. -/
def isEscaped : Bool → List Char → Bool
  | prevWasEscape, [] => !prevWasEscape
  | true, ch :: rest => (ch == '"' || ch == '\\') && isEscaped false rest
  | false, ch :: rest =>
    if ch = '\\' then isEscaped true rest else ch != '"' && isEscaped false rest

/-- A character that means nothing to the scanners. -/
def isUnmarked (ch : Char) : Bool :=
  !isWhitespace ch && ch ∉ ['"', '(', ')', '\x7b', '\x7d', '[', ']', '<', '>', ',']

mutual

def LoweredExpr.render : LoweredExpr → List Char
  | .word text => text
  | .literal contents => '"' :: contents ++ ['"']
  | .generic name args => name ++ '<' :: [','].intercalate (renderAll args) ++ ['>']
  | .call func args => callText func (renderAll args)

def LoweredExpr.renderAll : List LoweredExpr → List (List Char)
  | [] => []
  | arg :: args => arg.render :: renderAll args

end

mutual

def LoweredExpr.WellFormed : LoweredExpr → Prop
  | .word text => text ≠ [] ∧ text.all isUnmarked = true
  | .literal contents => isEscaped false contents = true
  | .generic name args => name ≠ [] ∧ name.all isUnmarked = true ∧ WellFormedAll args
  | .call func args => isSourceIdent func = true ∧ WellFormedAll args

def LoweredExpr.WellFormedAll : List LoweredExpr → Prop
  | [] => True
  | arg :: args => arg.WellFormed ∧ WellFormedAll args

end

/-- A part of an expression, at any depth. The arguments of a type are
none: a type is not evaluated. -/
inductive Subexpr (sub : LoweredExpr) : LoweredExpr → Prop where
  | here : Subexpr sub sub
  | arg {func : List Char} {args : List LoweredExpr} {arg : LoweredExpr} (hmem : arg ∈ args)
      (hsub : Subexpr sub arg) : Subexpr sub (.call func args)

/-- Where the scan of a text stands. -/
structure Scan where
  depth : Depth := {}
  angle : Nat := 0
  quoting : Quoting := {}

namespace Scan

variable (scan : Scan)

def step (ch : Char) : Scan :=
  if scan.quoting.inString then { scan with quoting := scan.quoting.step ch }
  else ⟨scan.depth.step ch, angleStep scan.angle ch, scan.quoting.step ch⟩

/-- Neither an argument nor the call around it ends at the character. -/
def Passes (ch : Char) : Prop :=
  scan.quoting.inString = true ∨
    ¬ (ch = ',' ∧ scan.depth = {} ∧ scan.angle = 0) ∧ (ch = ')' → 0 < scan.depth.paren)

instance (ch : Char) : Decidable (scan.Passes ch) := inferInstanceAs (Decidable (_ ∨ _))

/-- Where the scan stands behind a text that it passes over. -/
def pass : List Char → Scan → Option Scan
  | [], scan => some scan
  | ch :: text, scan => if scan.Passes ch then pass text (scan.step ch) else none

variable {scan next : Scan} {first second : List Char}

/-- A scan of two texts is a scan of one after the other. -/
theorem pass_append : pass (first ++ second) scan = (pass first scan).bind (pass second) := by
  induction first generalizing scan with
  | nil => rfl
  | cons ch first ih =>
    simp only [cons_append, pass, ih]
    split <;> rfl

theorem pass_cons_eq_some : pass (ch :: text) scan = some next ↔
    scan.Passes ch ∧ pass text (scan.step ch) = some next := by
  rw [pass, Option.ite_none_right_eq_some]

/-- What is passed over belongs to the current argument. -/
theorem splitArgs_append (hpass : pass text scan = some next) (current rest : List Char) :
    splitArgs scan.depth scan.angle scan.quoting current (text ++ rest) =
      splitArgs next.depth next.angle next.quoting (current ++ text) rest := by
  induction text generalizing scan current with
  | nil =>
    cases hpass
    rw [append_nil, nil_append]
  | cons ch text ih =>
    obtain ⟨hch, hpass⟩ := pass_cons_eq_some.1 hpass
    rw [append_cons current, ← ih hpass, cons_append, splitArgs]
    by_cases hstring : scan.quoting.inString = true
    · rw [if_pos hstring, step, if_pos hstring]
    · rw [if_neg hstring, if_neg (hch.resolve_left hstring).1, step, if_neg hstring]

/-- The call around it goes on behind it. -/
theorem matchingParen_append (hpass : pass text scan = some next) (rest : List Char) :
    matchingParen (scan.depth.paren + 1) scan.quoting (text ++ rest) =
      (matchingParen (next.depth.paren + 1) next.quoting rest).map (· + text.length) := by
  induction text generalizing scan with
  | nil =>
    cases hpass
    simp
  | cons ch text ih =>
    obtain ⟨hch, hpass⟩ := pass_cons_eq_some.1 hpass
    have hstep : matchingParen (scan.depth.paren + 1) scan.quoting (ch :: (text ++ rest)) =
        (matchingParen ((scan.step ch).depth.paren + 1) (scan.step ch).quoting
          (text ++ rest)).map (· + 1) := by
      rw [matchingParen]
      by_cases hstring : scan.quoting.inString = true
      · rw [if_pos hstring, step, if_pos hstring]
      · have hparen := (hch.resolve_left hstring).2
        rw [step]
        split_ifs with hopen hclose hlast
        · simp [Depth.step, hopen]
        · have := hparen hclose
          omega
        · simp [Depth.step, hclose, Nat.sub_add_cancel (hparen hclose)]
        · simp only [Depth.step]
          split_ifs <;> rfl
    rw [cons_append, hstep, ih hpass, Option.map_map]
    rfl

end Scan

/-- A text the scanners pass over as a whole, with neither end blank. -/
structure Sealed (text : List Char) : Prop where
  ne_nil : text ≠ []
  trim_eq : trim text = text
  pass_eq : ∀ depth angle, Scan.pass text ⟨depth, angle, {}⟩ = some ⟨depth, angle, {}⟩

theorem isUnmarked_iff : isUnmarked ch = true ↔
    isWhitespace ch = false ∧ ch ∉ ['"', '(', ')', '\x7b', '\x7d', '[', ']', '<', '>', ','] := by
  simp [isUnmarked]

open Scan

theorem pass_plain (hplain : text.all isUnmarked = true) (depth : Depth) (angle : Nat) :
    pass text ⟨depth, angle, {}⟩ = some ⟨depth, angle, {}⟩ := by
  induction text with
  | nil => rfl
  | cons ch text ih =>
    rw [all_cons, Bool.and_eq_true, isUnmarked_iff] at hplain
    obtain ⟨⟨-, hch⟩, hrest⟩ := hplain
    simp only [mem_cons, not_or] at hch
    have hstep : Scan.step ⟨depth, angle, {}⟩ ch = ⟨depth, angle, {}⟩ := by
      simp [Scan.step, Depth.step, angleStep, Quoting.step, hch]
    rw [pass_cons_eq_some, hstep]
    exact ⟨.inr ⟨fun h => absurd h.1 (by simp [hch]), fun h => absurd h (by simp [hch])⟩, ih hrest⟩

theorem trim_plain (hplain : text.all isUnmarked = true) : trim text = text :=
  trim_of_no_blank fun ch hch => (isUnmarked_iff.1 (all_eq_true.1 hplain ch hch)).1

theorem trim_bracketed {close : Char} {middle : List Char} (hne : name ≠ [])
    (hname : trim name = name) (hclose : isWhitespace close = false) :
    trim (name ++ middle ++ [close]) = name ++ middle ++ [close] := by
  refine trim_eq_self (fun ch hch => ?_) fun ch hch => ?_
  · rw [append_assoc, head?_append_of_ne_nil _ hne, ← hname] at hch
    exact head?_trim hch
  · rw [getLast?_concat] at hch
    cases hch
    exact hclose

/-! A string literal is passed over from quote to quote. -/

theorem quoting_step_escaped (hescaped : isEscaped prevWasEscape (ch :: contents) = true) :
    ∃ next, Quoting.step ⟨true, prevWasEscape⟩ ch = ⟨true, next⟩ ∧
      isEscaped next contents = true := by
  cases prevWasEscape with
  | true =>
    rw [isEscaped, Bool.and_eq_true] at hescaped
    exact ⟨false, by simp [Quoting.step], hescaped.2⟩
  | false =>
    rw [isEscaped] at hescaped
    split at hescaped
    next hch => exact ⟨true, by simp [Quoting.step, hch], hescaped⟩
    next hch =>
      rw [Bool.and_eq_true, bne_iff_ne] at hescaped
      exact ⟨false, by simp [Quoting.step, hch, hescaped.1], hescaped.2⟩

/-- A literal passes whatever it holds. -/
theorem pass_string (hescaped : isEscaped prevWasEscape contents = true) (depth : Depth)
    (angle : Nat) :
    pass (contents ++ ['"']) ⟨depth, angle, ⟨true, prevWasEscape⟩⟩ =
      some ⟨depth, angle, {}⟩ := by
  induction contents generalizing prevWasEscape with
  | nil =>
    cases prevWasEscape with
    | true => cases hescaped
    | false => rfl
  | cons ch contents ih =>
    obtain ⟨next, hstep, hnext⟩ := quoting_step_escaped hescaped
    rw [cons_append, pass_cons_eq_some, Scan.step, hstep]
    exact ⟨.inl rfl, ih hnext⟩

theorem sealed_literal (hescaped : isEscaped false contents = true) :
    Sealed ('"' :: contents ++ ['"']) := by
  have htrim : trim (['"'] ++ contents ++ ['"']) = ['"'] ++ contents ++ ['"'] :=
    trim_bracketed (by simp) (by decide) (by decide)
  refine ⟨by simp, htrim, fun depth angle => ?_⟩
  rw [cons_append, pass_cons_eq_some]
  exact ⟨.inr ⟨by simp, by simp⟩, pass_string hescaped depth angle⟩

/-! Arguments are passed over together where a comma does not split. -/

theorem commaSeparated_cons (text : List Char) (hne : texts ≠ []) :
    commaSeparated (text :: texts) = text ++ ',' :: ' ' :: commaSeparated texts := by
  obtain ⟨next, texts, rfl⟩ := exists_cons_of_ne_nil hne
  rfl

theorem commaSeparated_singleton (text : List Char) : commaSeparated [text] = text := by
  simp [commaSeparated]

theorem pass_intercalate {state : Scan} {separator : List Char}
    (hseparator : pass separator state = some state)
    (hpass : ∀ text ∈ texts, pass text state = some state) :
    pass (separator.intercalate texts) state = some state := by
  induction texts with
  | nil => rfl
  | cons text texts ih =>
    rw [forall_mem_cons] at hpass
    cases texts with
    | nil => rw [intercalate_singleton, hpass.1]
    | cons next texts =>
      rw [intercalate_cons_cons, append_assoc, pass_append, hpass.1, Option.bind_some, pass_append,
        hseparator, Option.bind_some, ih hpass.2]

/-- Inside brackets a comma, alone or with a blank, leaves the scan as it is. -/
theorem pass_separator {depth : Depth} {angle : Nat} (hinside : ¬ (depth = {} ∧ angle = 0)) :
    ∀ separator ∈ [[','], ", ".toList],
      pass separator ⟨depth, angle, {}⟩ = some ⟨depth, angle, {}⟩ := by
  have hcomma : ∀ blank, pass blank ⟨depth, angle, {}⟩ = some ⟨depth, angle, {}⟩ →
      pass (',' :: blank) ⟨depth, angle, {}⟩ = some ⟨depth, angle, {}⟩ := fun blank hblank =>
    pass_cons_eq_some.2 ⟨.inr ⟨fun h => hinside h.2, by simp⟩, hblank⟩
  refine forall_mem_cons.2 ⟨hcomma [] rfl, forall_mem_singleton.2 (hcomma [' '] ?_)⟩
  exact pass_cons_eq_some.2 ⟨.inr ⟨by simp, by simp⟩, rfl⟩

/-- A name with arguments in brackets of either kind. -/
theorem sealed_bracketed {opening closing : Char}
    (hpair : (opening, closing) ∈ [('(', ')'), ('<', '>')])
    {separator : List Char} (hseparator : separator ∈ [[','], ", ".toList])
    (hne : name ≠ []) (hname : name.all isUnmarked = true) (hargs : ∀ arg ∈ args, Sealed arg) :
    Sealed (name ++ opening :: separator.intercalate args ++ [closing]) := by
  have hinside : ∀ {depth : Depth} {angle : Nat}, ¬ (depth = {} ∧ angle = 0) →
      pass (separator.intercalate args) ⟨depth, angle, {}⟩ =
        some ⟨depth, angle, {}⟩ := fun hinside =>
    pass_intercalate (pass_separator hinside separator hseparator) fun arg harg =>
      (hargs arg harg).pass_eq _ _
  simp only [mem_cons, not_mem_nil, or_false] at hpair
  refine ⟨by simp, trim_bracketed hne (trim_plain hname) ?_, fun depth angle => ?_⟩
  · obtain ⟨rfl, rfl⟩ | ⟨rfl, rfl⟩ := hpair <;> decide
  · rw [append_assoc, pass_append, pass_plain hname, Option.bind_some, cons_append,
      pass_cons_eq_some, pass_append]
    obtain ⟨rfl, rfl⟩ | ⟨rfl, rfl⟩ := hpair
    · rw [show Scan.step ⟨depth, angle, {}⟩ '(' =
        ⟨{ depth with paren := depth.paren + 1 }, angle, {}⟩
        from rfl, hinside fun h => by cases h.1]
      exact ⟨.inr ⟨by simp, by simp⟩, pass_cons_eq_some.2
        ⟨.inr ⟨by simp, fun _ => Nat.succ_pos _⟩, rfl⟩⟩
    · rw [show Scan.step ⟨depth, angle, {}⟩ '<' = ⟨depth, angle + 1, {}⟩ from rfl,
        hinside (by simp)]
      exact ⟨.inr ⟨by simp, by simp⟩, pass_cons_eq_some.2 ⟨.inr ⟨by simp, by simp⟩, rfl⟩⟩

theorem isUnmarked_of_isNameChar (hch : isNameChar ch = true) : isUnmarked ch = true := by
  have hascii : ch.toNat < 128 := by
    simp only [isNameChar, Bool.or_eq_true, beq_iff_eq] at hch
    rcases hch with (hch | rfl) | rfl
    · exact ascii_of_isAlphanum hch
    all_goals decide
  have hall : (isNameChar ch && !isUnmarked ch) = false :=
    forall_ascii (P := fun ch => (isNameChar ch && !isUnmarked ch) = false)
      (by decide +kernel) hascii
  rw [hch, Bool.true_and, Bool.not_eq_false'] at hall
  exact hall

theorem plain_of_isSourceIdent (hname : isSourceIdent name = true) :
    name ≠ [] ∧ name.all isUnmarked = true := by
  simp only [isSourceIdent, Bool.and_eq_true, decide_eq_true_eq, all_eq_true] at hname
  exact ⟨hname.1.1, all_eq_true.2 fun ch hch => isUnmarked_of_isNameChar (hname.1.2 ch hch)⟩

/-- A call of sealed arguments is sealed. -/
theorem sealed_callText (hfunc : isSourceIdent func = true) (hargs : ∀ arg ∈ args, Sealed arg) :
    Sealed (callText func args) :=
  have ⟨hne, hplain⟩ := plain_of_isSourceIdent hfunc
  sealed_bracketed (.head _) (.tail _ (.head _)) hne hplain hargs

/-! ## Arguments -/

/-- An argument: neither end is blank, brackets and string literals are
closed, and no comma stands outside of brackets. -/
structure SourceArg (text : List Char) : Prop where
  ne_nil : text ≠ []
  trim_eq : trim text = text
  balanced : ∃ angle, Scan.pass text {} = some { angle }

theorem Sealed.sourceArg (hsealed : Sealed text) : SourceArg text :=
  ⟨hsealed.ne_nil, hsealed.trim_eq, 0, hsealed.pass_eq {} 0⟩

theorem length_lt_splitArgs {depth : Depth} {angle n : Nat} {quoting : Quoting}
    {current : List Char} (hlong : ∀ more, n < (trim (current ++ more)).length) (rest : List Char) :
    ∃ part tail, splitArgs depth angle quoting current rest = part :: tail ∧ n < part.length := by
  have hcurrent := hlong []
  rw [append_nil] at hcurrent
  induction rest generalizing depth angle quoting current with
  | nil =>
    rw [splitArgs, if_neg (ne_nil_of_length_pos (Nat.zero_lt_of_lt hcurrent))]
    exact ⟨_, _, rfl, hcurrent⟩
  | cons ch rest ih =>
    have hlong' : ∀ more, n < (trim (current ++ [ch] ++ more)).length := by
      intro more
      rw [append_assoc]
      exact hlong _
    unfold splitArgs
    split_ifs
    · exact ih hlong' (hlong _)
    · exact ⟨_, _, rfl, hcurrent⟩
    · exact ih hlong' (hlong _)

theorem splitArgs_commaSeparated_iff (hargs : ∀ arg ∈ args, SourceArg arg) (hne : args ≠ [])
    {current : List Char} (hblank : ∀ text, trim (current ++ text) = trim text) :
    splitArgs {} 0 {} current (commaSeparated args) = args ↔
      ∀ arg ∈ args.dropLast, pass arg {} = some {} := by
  induction args generalizing current with
  | nil => exact absurd rfl hne
  | cons arg args ih =>
    obtain ⟨hne', htrim, angle, hpass⟩ := hargs arg (.head _)
    have happend := splitArgs_append hpass current
    by_cases hlast : args = []
    · subst hlast
      rw [commaSeparated_singleton, ← append_nil arg, happend, splitArgs, hblank, htrim,
        if_neg hne']
      simp
    · rw [commaSeparated_cons arg hlast, dropLast_cons_of_ne_nil hlast, forall_mem_cons, happend,
        splitArgs, if_neg (by simp), hpass]
      by_cases hangle : angle = 0
      · subst hangle
        have hrest := @ih (fun arg harg => hargs arg (.tail _ harg)) hlast [' '] fun text =>
          trim_blank_cons (by decide)
        rw [if_pos ⟨rfl, rfl, rfl⟩, hblank, htrim, show Quoting.step {} ',' = {} from rfl,
          splitArgs,
          if_neg (by simp), if_neg (by simp), cons_inj_right]
        simpa [Depth.step, angleStep, Quoting.step] using hrest
      · -- The comma belongs to the argument, which so gets longer.
        rw [if_neg fun h => hangle h.2.2]
        refine ⟨fun heq => ?_, fun h => absurd (congrArg Scan.angle (Option.some.inj h.1)) hangle⟩
        have hlong : ∀ more, arg.length < (trim (current ++ arg ++ [','] ++ more)).length := by
          intro more
          rw [append_assoc, append_assoc, hblank, ← append_assoc, trim_append (by simp)]
          · simp
          · rw [head?_append_of_ne_nil _ hne', ← htrim]
            exact fun c => head?_trim
          · intro c hc
            rw [getLast?_concat] at hc
            cases hc
            decide
        obtain ⟨part, tail, hsplit, hlt⟩ := length_lt_splitArgs hlong (' ' :: commaSeparated args)
        rw [hsplit] at heq
        cases heq
        omega

theorem matchingParen_commaSeparated (hargs : ∀ arg ∈ args, SourceArg arg) (rest : List Char) :
    matchingParen 1 {} (commaSeparated args ++ rest) =
      (matchingParen 1 {} rest).map (· + (commaSeparated args).length) := by
  induction args with
  | nil => simp [commaSeparated]
  | cons arg args ih =>
    obtain ⟨-, -, angle, hpass⟩ := hargs arg (.head _)
    have happend := matchingParen_append hpass
    by_cases hlast : args = []
    · subst hlast
      rw [commaSeparated_singleton]
      exact happend rest
    · have hcomma : matchingParen 1 {} (',' :: ' ' :: (commaSeparated args ++ rest)) =
          (matchingParen 1 {} (commaSeparated args ++ rest)).map (· + 2) := by
        simp [matchingParen]
        rfl
      rw [commaSeparated_cons arg hlast, append_assoc, cons_append, cons_append]
      refine (happend _).trans ?_
      rw [hcomma, ih fun arg harg => hargs arg (.tail _ harg), Option.map_map, Option.map_map]
      refine congrArg (fun f => Option.map f _) (funext fun n => ?_)
      simp only [Function.comp_apply, length_append, length_cons]
      omega

/-- A call is taken apart at the commas that the scan of its arguments finds. -/
theorem parseSourceCall_callText (hfunc : isSourceIdent func = true)
    (hargs : ∀ arg ∈ args, SourceArg arg) :
    parseSourceCall (callText func args) = some (func, splitSourceArgs (commaSeparated args)) := by
  obtain ⟨hne, hplain⟩ := plain_of_isSourceIdent hfunc
  have htrim : trim (callText func args) = callText func args :=
    trim_bracketed hne (trim_plain hplain) (by decide)
  have hsplit : splitOnce '(' (callText func args) = some (func, commaSeparated args ++ [')']) := by
    rw [callText, append_assoc]
    exact splitOnce_append _ (not_mem_of_isSourceIdent hfunc)
  have hmatch : matchingParen 0 {} ('(' :: (commaSeparated args ++ [')'])) =
      some (commaSeparated args ++ [')']).length := by
    rw [matchingParen,
      show Quoting.step {} '(' = {} from rfl,
      matchingParen_commaSeparated hargs, length_append,
      show matchingParen 1 {} [')'] = some 0 from rfl,
      Option.map_some, Nat.zero_add]
    rfl
  have hlast : (callText func args).getLast? = some ')' := by
    rw [callText, getLast?_concat]
  simp [parseSourceCall, htrim, hsplit, hlast, hmatch, trim_plain hplain, hfunc]

/-- Arguments come apart as they were written exactly if each of them but
the last closes its `<`: the scan takes every one for a bracket, a
comparison included. -/
theorem splitSourceArgs_joined_iff (hfunc : isSourceIdent func = true) (hne : args ≠ [])
    (hargs : ∀ arg ∈ args, SourceArg arg) :
    splitSourceArgs (commaSeparated args) = args ∧
        parseSourceCall (callText func args) = some (func, args) ↔
      ∀ arg ∈ args.dropLast, Scan.pass arg {} = some {} := by
  have hsplit : splitSourceArgs (commaSeparated args) = args ↔ _ :=
    splitArgs_commaSeparated_iff hargs hne fun _ => rfl
  rw [parseSourceCall_callText hfunc hargs, ← hsplit]
  simp

theorem splitSourceArgs_joined_max :
    let args := ["a".toList, "b < c".toList]
    splitSourceArgs (commaSeparated args) = args ∧
      parseSourceCall (callText "max".toList args) = some ("max".toList, args) := by
  refine (splitSourceArgs_joined_iff (by decide) (by simp) (forall_mem_cons.2 ⟨?_, ?_⟩)).2
    (forall_mem_singleton.2 rfl)
  · exact ⟨by simp, by decide, 0, rfl⟩
  · exact forall_mem_singleton.2 ⟨by simp, by decide, 1, rfl⟩

/-- Behind a comparison the next argument is not told apart. -/
theorem splitSourceArgs_comparison :
    SourceArg "a < b".toList ∧ SourceArg "c".toList ∧
      splitSourceArgs "a < b, c".toList = ["a < b, c".toList] :=
  ⟨⟨by simp, by decide, 1, rfl⟩, ⟨by simp, by decide, 0, rfl⟩, by decide⟩

/-- A rendered call is parsed back. -/
theorem parseSourceCall_sealed (hfunc : isSourceIdent func = true)
    (hargs : ∀ arg ∈ args, Sealed arg) : parseSourceCall (callText func args) =
      some (func, args) := by
  have hsource := fun arg harg => (hargs arg harg).sourceArg
  rw [parseSourceCall_callText hfunc hsource]
  by_cases hne : args = []
  · rw [hne]
    rfl
  · have hsplit : splitSourceArgs (commaSeparated args) = args :=
      (splitArgs_commaSeparated_iff hsource hne fun _ => rfl).2 fun arg harg =>
        (hargs arg (dropLast_subset _ harg)).pass_eq {} 0
    rw [hsplit]

variable {args : List LoweredExpr} {arg : LoweredExpr}

theorem LoweredExpr.render_mem_renderAll (h : arg ∈ args) : arg.render ∈ renderAll args := by
  induction args with
  | nil => cases h
  | cons head args ih =>
    rcases mem_cons.1 h with rfl | h
    · exact .head _
    · exact .tail _ (ih h)

theorem LoweredExpr.wellFormed_of_mem (hargs : WellFormedAll args) (h : arg ∈ args) :
    arg.WellFormed := by
  induction args with
  | nil => cases h
  | cons head args ih =>
    rcases mem_cons.1 h with rfl | h
    · exact hargs.1
    · exact ih hargs.2 h

mutual

/-- What the lowering renders is sealed. -/
theorem LoweredExpr.sealed_render : ∀ {expr : LoweredExpr}, expr.WellFormed → Sealed expr.render
  | .word _, hexpr => ⟨hexpr.1, trim_plain hexpr.2, pass_plain hexpr.2⟩
  | .literal _, hexpr => sealed_literal hexpr
  | .generic _ _, hexpr =>
    sealed_bracketed (by simp) (.head _) hexpr.1 hexpr.2.1 (sealed_renderAll hexpr.2.2)
  | .call _ _, hexpr => sealed_callText hexpr.1 (sealed_renderAll hexpr.2)

theorem LoweredExpr.sealed_renderAll :
    ∀ {args : List LoweredExpr}, WellFormedAll args → ∀ text ∈ renderAll args, Sealed text
  | [], _, _, h => by cases h
  | arg :: args, hargs, text, h => by
    rcases mem_cons.1 h with rfl | h
    · exact sealed_render hargs.1
    · exact sealed_renderAll hargs.2 text h

end

/-- A part of an expression is found in its text. -/
theorem occurs_render {sub expr : LoweredExpr} (hsub : Subexpr sub expr) (hexpr : expr.WellFormed) :
    Occurs sub.render expr.render := by
  induction hsub with
  | here => exact .here
  | @arg func args arg hmem _ ih =>
    exact .arg (parseSourceCall_sealed hexpr.1 (LoweredExpr.sealed_renderAll hexpr.2))
      (LoweredExpr.render_mem_renderAll hmem) (ih (LoweredExpr.wellFormed_of_mem hexpr.2 hmem))

end Ail.Cli
