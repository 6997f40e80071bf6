import Ail.Compiler.CoreIr

/-!
# The body-expression parser

`parse_expr` reads the text of a function body (`expr_parser.rs`,
`expr_parser_helpers.rs`): a string, a number, an identifier, or a call
`name(arg, …)` whose name decides the form it builds.

The parser holds a byte position in a `str`; here that is the rest of
the text with the position reached. White space is skipped one BYTE at a
time, so after a white-space character of several bytes the next look at
the text panics: `Failure.panic`.

The recursion is on fuel; `parseExpr_ensures` says that the fuel given
never runs out. The parsing of a float and the debug rendering of a
character belong to the standard library and are parameters.
-/

namespace Ail.Compiler

open Ail.Core

/-- What the parser takes from the Rust standard library. -/
structure RustStd where
  /-- The bits of `str::parse::<f64>`, if it succeeds. -/
  parseF64 : String → Option UInt64
  /-- `char` as `{:?}` prints it. -/
  debugChar : Char → String

/-- No float is parsed and no character printed. -/
def RustStd.trivial : RustStd := ⟨fun _ => none, fun _ => ""⟩

inductive Failure where
  | error (message : String)
  | panic
  | outOfFuel

/-- The unread text and its byte position in the input. -/
structure Cursor where
  rest : List Char
  pos : Nat

def parseError {α : Type} (message : String) : Except Failure α := .error (.error message)

/-! ## Lexical level -/

/-- `skip_ws`: one byte for each white-space character. -/
def skipWs : List Char → Nat → Except Failure Cursor
  | [], pos => .ok ⟨[], pos⟩
  | c :: cs, pos =>
    if isWhitespace c then
      if c.utf8Size = 1 then skipWs cs (pos + 1) else .error .panic
    else .ok ⟨c :: cs, pos⟩

/-- `consume`, for the delimiters (each one byte). -/
def consume (expected : Char) (cursor : Cursor) : Option Cursor :=
  match cursor.rest with
  | c :: cs => if c = expected then some ⟨cs, cursor.pos + 1⟩ else none
  | [] => none

def isIdentChar (c : Char) : Bool := c.isAlphanum || c == '_' || c == '.'

def parseIdent (cursor : Cursor) : Except Failure (String × Cursor) :=
  let name := cursor.rest.takeWhile isIdentChar
  if name = [] then parseError ("expected identifier at byte " ++ toString cursor.pos)
  else .ok (String.ofList name, ⟨cursor.rest.dropWhile isIdentChar, cursor.pos + name.length⟩)

/-- The loop of `parse_string_literal`, after the opening quote. -/
def parseStringTail (std : RustStd) :
    List Char → Nat → List Char → Except Failure (String × Cursor)
  | [], _, _ => parseError "unterminated string literal"
  | '"' :: cs, pos, result => .ok (String.ofList result, ⟨cs, pos + 1⟩)
  | '\\' :: '"' :: cs, pos, result => parseStringTail std cs (pos + 2) (result ++ ['"'])
  | '\\' :: '\\' :: cs, pos, result => parseStringTail std cs (pos + 2) (result ++ ['\\'])
  | '\\' :: 'n' :: cs, pos, result => parseStringTail std cs (pos + 2) (result ++ ['\n'])
  | '\\' :: 't' :: cs, pos, result => parseStringTail std cs (pos + 2) (result ++ ['\t'])
  | '\\' :: c :: _, _, _ =>
    parseError ("unsupported escape sequence: \\Some(" ++ std.debugChar c ++ ")")
  | ['\\'], _, _ => parseError "unsupported escape sequence: \\None"
  | c :: cs, pos, result => parseStringTail std cs (pos + c.utf8Size) (result ++ [c])

/-- `parse_number`: `none` when the text does not start with a number. A
point is part of the number only if a digit follows it. -/
def parseNumber (std : RustStd) (cursor : Cursor) :
    Except Failure (Option (LiteralValue × Cursor)) :=
  let sign := cursor.rest.takeWhile (· == '-') |>.take 1
  let unsigned := cursor.rest.drop sign.length
  let digits := unsigned.takeWhile Char.isDigit
  let after := unsigned.dropWhile Char.isDigit
  if digits = [] then .ok none
  else
    let fraction := (after.drop 1).takeWhile Char.isDigit
    if after.head? = some '.' ∧ fraction ≠ [] then
      let text := sign ++ digits ++ '.' :: fraction
      match std.parseF64 (String.ofList text) with
      | none => parseError ("float literal out of range: " ++ String.ofList text)
      | some bits =>
        .ok (some (.float bits,
          ⟨(after.drop 1).dropWhile Char.isDigit, cursor.pos + text.length⟩))
    else
      match parseI64 (sign ≠ []) digits with
      | none => parseError ("integer literal out of range: " ++ String.ofList (sign ++ digits))
      | some value =>
        .ok (some (.int value, ⟨after, cursor.pos + sign.length + digits.length⟩))

/-! ## Building forms from calls -/

def expectName (context : String) : CoreExpr → Except Failure String
  | .var name => .ok name
  | _ => parseError (context ++ " must be an identifier")

/-- The error of `expect_arity` and of the forms that count their
arguments themselves. -/
def arityError {α : Type} (func : String) (expected : Nat) (args : List CoreExpr) :
    Except Failure α :=
  parseError (func ++ " expects " ++ toString expected ++ " args, got " ++ toString args.length)

variable (func : String) (args : List CoreExpr)

def expectArity0 (e : CoreExpr) : Except Failure CoreExpr :=
  match args with
  | [] => .ok e
  | _ => arityError func 0 args

def expectArity1 (make : CoreExpr → Except Failure CoreExpr) : Except Failure CoreExpr :=
  match args with
  | [a] => make a
  | _ => arityError func 1 args

def expectArity2 (make : CoreExpr → CoreExpr → Except Failure CoreExpr) : Except Failure CoreExpr :=
  match args with
  | [a, b] => make a b
  | _ => arityError func 2 args

def expectArity3 (make : CoreExpr → CoreExpr → CoreExpr → Except Failure CoreExpr) :
    Except Failure CoreExpr :=
  match args with
  | [a, b, c] => make a b c
  | _ => arityError func 3 args

def binary (op : BinaryOp) : Except Failure CoreExpr :=
  expectArity2 func args fun left right => .ok (.binary op left right)

mutual

/-- A pattern argument as the pattern string of its arm. -/
def renderMatchPattern : CoreExpr → Except Failure String
  | .var name => .ok name
  | .literal (.bool value) => .ok (toString value)
  | .literal (.int value) => .ok (toString value.toInt)
  | .call func args => do
    let rendered ← renderMatchPatterns args
    .ok (func ++ "(" ++ ", ".intercalate rendered ++ ")")
  | .variantNew tag none => .ok tag
  | .variantNew tag (some inner) => do
    let rendered ← renderMatchPattern inner
    .ok (tag ++ "(" ++ rendered ++ ")")
  | _ => parseError "match pattern must be an identifier, literal, wildcard, or constructor pattern"

def renderMatchPatterns : List CoreExpr → Except Failure (List String)
  | [] => .ok []
  | e :: es => do
    let first ← renderMatchPattern e
    let rest ← renderMatchPatterns es
    .ok (first :: rest)

end

/-- Consecutive arguments taken two by two; an argument left over is
dropped (every caller has checked the count). -/
def pairUp {κ : Type} (key : CoreExpr → Except Failure κ) :
    List CoreExpr → Except Failure (List (κ × CoreExpr))
  | k :: v :: rest => do
    let k ← key k
    let pairs ← pairUp key rest
    .ok ((k, v) :: pairs)
  | _ => .ok []

def parseMatchCall : Except Failure CoreExpr :=
  match args with
  | scrutinee :: rest =>
    if args.length < 3 ∨ args.length % 2 = 0 then
      parseError ("match expects scrutinee plus pattern/body pairs, got " ++
        toString args.length ++ " args")
    else do
      let arms ← pairUp renderMatchPattern rest
      .ok (.matchOn scrutinee arms)
  | [] => parseError "match expects scrutinee plus pattern/body pairs, got 0 args"

def parseRecordCall : Except Failure CoreExpr :=
  if args.length % 2 ≠ 0 then
    parseError ("record expects field/value pairs, got " ++ toString args.length ++ " args")
  else do
    let fields ← pairUp (expectName "record field name") args
    .ok (.recordNew fields)

def parseVariantCall : Except Failure CoreExpr :=
  match args with
  | [tag] => do
    let tag ← expectName "variant tag" tag
    .ok (.variantNew tag none)
  | [tag, payload] => do
    let tag ← expectName "variant tag" tag
    .ok (.variantNew tag (some payload))
  | _ => parseError ("variant expects 1 or 2 args, got " ++ toString args.length)

def parseMapCall : Except Failure CoreExpr :=
  if args.length % 2 ≠ 0 then
    parseError ("map expects an even number of args (key/value pairs), got " ++
      toString args.length)
  else do
    let entries ← pairUp .ok args
    .ok (.mapNew entries)

def parseEffectCall : Except Failure CoreExpr :=
  match args with
  | capability :: operation :: args => do
    let capability ← expectName "capability name" capability
    let operation ← expectName "operation name" operation
    .ok (.effectCall capability operation args)
  | _ => parseError ("effect_call expects at least 2 args (capability, operation), got " ++
      toString args.length)

def parseLambdaCall : Except Failure CoreExpr :=
  match args.reverse with
  | [] => parseError "lambda expects at least 1 arg (body expression)"
  | body :: params => do
    let params ← params.reverse.mapM (expectName "lambda parameter")
    .ok (.lambda params body)

/-- The message of `abort`: a string literal or a bare identifier. -/
def parseAbort : CoreExpr → Except Failure CoreExpr
  | .literal (.text message) => .ok (.abort message)
  | .var name => .ok (.abort name)
  | _ => parseError "abort expects a string literal or identifier as the message"

/-- `print` is sugar for an effect call on a text literal. -/
def parsePrint : CoreExpr → Except Failure CoreExpr
  | .literal (.text message) =>
    .ok (.effectCall "log.write" "write" [.literal (.text message)])
  | _ => parseError "print expects a Text literal argument"

def exprFromCall : Except Failure CoreExpr :=
  match func with
  | "let" => expectArity3 func args fun binding value body =>
    match binding with
    | .var name => .ok (.letIn name value body)
    | _ => parseError "let binding name must be an identifier"
  | "if" => expectArity3 func args fun cond then_ else_ => .ok (.ifElse cond then_ else_)
  | "match" => parseMatchCall args
  | "unit" => expectArity0 func args (.literal .unit)
  | "record" => parseRecordCall args
  | "field" => expectArity2 func args fun record field => do
    .ok (.fieldGet record (← expectName "field name" field))
  | "update" => expectArity3 func args fun record field value => do
    .ok (.fieldUpdate record (← expectName "field name" field) value)
  | "tuple" => .ok (.tupleNew args)
  | "variant" => parseVariantCall args
  | "list" => .ok (.listNew args)
  | "add" => binary func args .add
  | "sub" => binary func args .sub
  | "mul" => binary func args .mul
  | "div" => binary func args .div
  | "mod" => binary func args .mod
  | "eq" => binary func args .eq
  | "ne" => binary func args .ne
  | "lt" => binary func args .lt
  | "le" => binary func args .le
  | "gt" => binary func args .gt
  | "ge" => binary func args .ge
  | "not" => expectArity1 func args fun operand => .ok (.not operand)
  | "none" => expectArity0 func args (.variantNew "None" none)
  | "some" => expectArity1 func args fun payload => .ok (.variantNew "Some" (some payload))
  | "ok" => expectArity1 func args fun payload => .ok (.variantNew "Ok" (some payload))
  | "err" => expectArity1 func args fun payload => .ok (.variantNew "Err" (some payload))
  | "and" => expectArity2 func args fun left right => .ok (.and left right)
  | "or" => expectArity2 func args fun left right => .ok (.or left right)
  | "abort" => expectArity1 func args parseAbort
  | "loop" => expectArity1 func args fun body => .ok (.loop body none)
  | "while" => expectArity2 func args fun cond body => .ok (.whileLoop cond body none)
  | "break" => expectArity1 func args fun value => .ok (.breakWith value)
  | "continue" => expectArity0 func args .continueLoop
  | "return" => expectArity1 func args fun value => .ok (.returnWith value)
  | "print" => expectArity1 func args parsePrint
  | "effect_call" => parseEffectCall args
  | "lambda" => parseLambdaCall args
  | "foreach" => expectArity3 func args fun binding collection body => do
    .ok (.forEach (← expectName "foreach binding" binding) collection body)
  | "fold" => expectArity3 func args fun init list f => .ok (.fold init list f)
  | "cell_new" => expectArity1 func args fun init => .ok (.cellNew init)
  | "cell_get" => expectArity1 func args fun cell => .ok (.cellGet cell)
  | "cell_set" => expectArity2 func args fun cell value => .ok (.cellSet cell value)
  | "map" => parseMapCall args
  | "set" => .ok (.setNew args)
  | "index" => expectArity2 func args fun collection index => .ok (.indexGet collection index)
  | _ => .ok (.call func args)

/-! ## The parser -/

/-- An identifier that no parenthesis follows. -/
def identExpr : String → CoreExpr
  | "true" => .literal (.bool true)
  | "false" => .literal (.bool false)
  | name => .var name

mutual

def parseExprAt (std : RustStd) : Nat → Cursor → Except Failure (CoreExpr × Cursor)
  | 0, _ => .error .outOfFuel
  | fuel + 1, cursor => do
    let cursor ← skipWs cursor.rest cursor.pos
    match cursor.rest with
    | [] => parseError "expected expression"
    | '"' :: text => do
      let (content, cursor) ← parseStringTail std text (cursor.pos + 1) []
      .ok (.literal (.text content), cursor)
    | _ =>
      match ← parseNumber std cursor with
      | some (value, cursor) => .ok (.literal value, cursor)
      | none => do
        let (ident, cursor) ← parseIdent cursor
        let cursor ← skipWs cursor.rest cursor.pos
        match consume '(' cursor with
        | none => .ok (identExpr ident, cursor)
        | some cursor => do
          let cursor ← skipWs cursor.rest cursor.pos
          match consume ')' cursor with
          | some cursor => do
            let e ← exprFromCall ident []
            .ok (e, cursor)
          | none => do
            let (args, cursor) ← parseArgs std fuel cursor
            let e ← exprFromCall ident args
            .ok (e, cursor)

/-- The loop of `parse_args`: one argument, then `)` or `,` and the rest. -/
def parseArgs (std : RustStd) : Nat → Cursor → Except Failure (List CoreExpr × Cursor)
  | 0, _ => .error .outOfFuel
  | fuel + 1, cursor => do
    let (arg, cursor) ← parseExprAt std fuel cursor
    let cursor ← skipWs cursor.rest cursor.pos
    match consume ')' cursor with
    | some cursor => .ok ([arg], cursor)
    | none =>
      match consume ',' cursor with
      | some cursor => do
        let (args, cursor) ← parseArgs std fuel cursor
        .ok (arg :: args, cursor)
      | none => parseError ("expected ',' or ')' at byte " ++ toString cursor.pos)

end

/-- `parse_expr`: an expression and nothing after it. -/
def parseExpr (std : RustStd) (input : String) : Except Failure CoreExpr := do
  let (e, cursor) ← parseExprAt std (input.toList.length + 1) ⟨input.toList, 0⟩
  let cursor ← skipWs cursor.rest cursor.pos
  if cursor.rest ≠ [] then
    parseError ("unexpected trailing input at byte " ++ toString cursor.pos)
  else .ok e

end Ail.Compiler
