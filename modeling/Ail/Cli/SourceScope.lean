import Ail.Cli.Source

/-!
# Local names and constants

A constant is compiled to a function without parameters, so a body that
mentions it by name has to call it: `source_expr_to_acl_body` rewrites
the name to a call. It does so wherever it finds a text that is not a
call, whatever the text is: the name of a `let`, a variable that a
parameter or a pattern binds, the capability of an effect call.

`scopedBody` is the rewriting with scopes, in the terms of the validator
that has accepted the body (`validate_source_expr_vars`): which arguments
of a call are expressions, and which names are bound in them. `captured`
lists the names that the code looks up and the scopes forbid, and the two
rewritings agree exactly when none of them is a constant.
-/

namespace Ail.Cli

open Ail.Core Change List

/-! ## Match patterns -/

/-- The tag of a constructor pattern and what it binds. -/
def sourceConstructorPattern (pattern : List Char) : Option (List Char × Option (List Char)) :=
  let trimmed := trim pattern
  match trimmed with
  | [] => none
  | first :: _ =>
    if !first.isUpper then none
    else
      match splitOnce '(' trimmed with
      | none => some (trimmed, none)
      | some (before, after) =>
        match (stripBack ')' (trim after)).map trim with
        | none => none
        | some binding =>
          if '(' ∈ binding ∨ ',' ∈ binding ∨ binding = [] then none
          else some (trim before, some binding)

def sourceMatchPatternBinding (pattern : List Char) : Option (List Char) :=
  match sourceConstructorPattern pattern with
  | some (_, some binding) => if binding = "_".toList then none else some binding
  | _ => none

/-! ## Which arguments are expressions -/

/-- What an argument is to the resolution of names: no expression, or one
under the names bound around it. -/
inductive Role where
  | inert
  | evaluated (scope : List (List Char))

/-- Patterns and bodies, in turns. -/
def armRoles (scope : List (List Char)) : List (List Char) → List Role
  | pattern :: _ :: rest =>
    .inert :: .evaluated ((sourceMatchPatternBinding pattern).toList ++ scope) ::
      armRoles scope rest
  | rest => rest.map fun _ => .evaluated scope

/-- Names and values, in turns. -/
def fieldRoles (scope : List (List Char)) : List (List Char) → List Role
  | _ :: _ :: rest => .inert :: .evaluated scope :: fieldRoles scope rest
  | rest => rest.map fun _ => .evaluated scope

/-- The arguments of a call in a scope, as the validator reads them. -/
def evaluatedRoles (scope : List (List Char)) (func : List Char) (args : List (List Char)) :
    List Role :=
  match args with
  | [name, _, _] =>
    if func = "let".toList ∧ isSourceLocalIdent name then
      [.inert, .evaluated scope, .evaluated (name :: scope)]
    else if func = "match".toList then .evaluated scope :: armRoles scope args.tail
    else if func = "update".toList then [.evaluated scope, .inert, .evaluated scope]
    else if func = "effect_call".toList then [.inert, .inert, .evaluated scope]
    else args.map fun _ => .evaluated scope
  | [name, _, _, _, _] =>
    if func = "let_typed".toList ∧ isSourceLocalIdent name then
      [.inert, .inert, .inert, .evaluated scope, .evaluated (name :: scope)]
    else if func = "match".toList then .evaluated scope :: armRoles scope args.tail
    else if func = "effect_call".toList then
      [.inert, .inert, .evaluated scope, .evaluated scope, .evaluated scope]
    else args.map fun _ => .evaluated scope
  | _ =>
    if func = "match".toList ∧ 3 ≤ args.length ∧ args.length % 2 = 1 then
      .evaluated scope :: armRoles scope args.tail
    else if func = "record".toList ∧ args.length % 2 = 0 then fieldRoles scope args
    else if func = "field".toList ∧ args.length = 2 then [.evaluated scope, .inert]
    else if func = "effect_call".toList ∧ 2 ≤ args.length then
      .inert :: .inert :: (args.drop 2).map fun _ => .evaluated scope
    else args.map fun _ => .evaluated scope

def argRoles (role : Role) (func : List Char) (args : List (List Char)) : List Role :=
  match role with
  | .inert => args.map fun _ => .inert
  | .evaluated scope => evaluatedRoles scope func args

/-- Words that are literals and not names. -/
def literalWords : List (List Char) := ["true".toList, "false".toList, "None".toList]

/-- A name is free to stand for a constant. -/
def Role.resolves (role : Role) (name : List Char) : Bool :=
  match role with
  | .inert => false
  | .evaluated scope => name ∉ scope ∧ name ∉ literalWords

/-! ## Rewriting with scopes -/

def constantCall (constants : List (List Char × List Char)) (name : List Char) : List Char :=
  match sourceConstReferenceTarget name constants with
  | some constant => constant ++ "()".toList
  | none => name

/-- Constants are called at their free occurrences, and nowhere else. -/
def scopedBody (constants : List (List Char × List Char)) (role : Role) (text : List Char) :
    List Char :=
  match _ : parseSourceCall text with
  | none => if role.resolves (trim text) then constantCall constants (trim text) else trim text
  | some (func, args) =>
    aclCall func args
      (args.attach.zipWith (fun arg role => scopedBody constants role arg.1)
        (argRoles role func args))
termination_by text.length
decreasing_by exact length_lt_of_parseSourceCall ‹_› arg.2

/-! ## The slots of a call

What `aclCall` keeps of each argument: the text that became of it, some
of the argument itself, or nothing. -/

inductive Slot where
  | dropped
  | fixed (text : List Char)
  | filled

def fieldSlots : List (List Char) → List Slot
  | name :: _ :: rest => .fixed (trim name) :: .filled :: fieldSlots rest
  | _ => []

def aclName (func : List Char) (args : List (List Char)) : List Char :=
  match args with
  | [name, _, _, _, _] =>
    if func = "let_typed".toList ∧ isSourceLocalIdent name then "let".toList else func
  | _ => func

def aclSlots (func : List Char) (args : List (List Char)) : List Slot :=
  match args with
  | [name, _, _, _, _] =>
    if func = "let_typed".toList ∧ isSourceLocalIdent name then
      [.fixed name, .dropped, .dropped, .filled, .filled]
    else [.filled, .filled, .filled, .filled, .filled]
  | [name, field] =>
    if func = "record".toList then [.fixed (trim name), .filled]
    else if func = "field".toList then [.filled, .fixed (trim field)]
    else [.filled, .filled]
  | [_, field, _] =>
    if func = "update".toList then [.filled, .fixed (trim field), .filled]
    else [.filled, .filled, .filled]
  | _ =>
    if func = "record".toList ∧ args.length % 2 = 0 then fieldSlots args
    else args.map fun _ => .filled

def fillSlots : List Slot → List (List Char) → List (List Char)
  | .dropped :: slots, _ :: texts => fillSlots slots texts
  | .fixed text :: slots, _ :: texts => text :: fillSlots slots texts
  | .filled :: slots, text :: texts => text :: fillSlots slots texts
  | _, _ => []

theorem fillSlots_filled (texts : List (List Char)) :
    fillSlots (texts.map fun _ => .filled) texts = texts := by
  induction texts with
  | nil => rfl
  | cons text texts ih => rw [map_cons, fillSlots, ih]

variable {args lowered : List (List Char)}

theorem fillSlots_fieldSlots (hlength : lowered.length = args.length) :
    fillSlots (fieldSlots args) lowered = recordFields args lowered := by
  fun_induction recordFields args lowered with
  | case1 name _ args _ value lowered ih =>
    rw [fieldSlots, fillSlots, fillSlots, ih (by simpa using hlength)]
  | case2 args lowered hshort =>
    rcases args with _ | ⟨name, _ | ⟨arg, args⟩⟩
    · rfl
    · rfl
    · rcases lowered with _ | ⟨first, _ | ⟨value, lowered⟩⟩
      · simp at hlength
      · simp at hlength
      · exact absurd rfl (hshort name arg args first value lowered rfl)

/-- A call is written from its slots. -/
theorem aclCall_eq_fill {func : List Char} (hlength : lowered.length = args.length) :
    aclCall func args lowered =
      callText (aclName func args) (fillSlots (aclSlots func args) lowered) := by
  have hother : ∀ {args lowered : List (List Char)}, lowered.length = args.length →
      (if func = "record".toList ∧ args.length % 2 = 0 then
        callText func (recordFields args lowered)
        else callText func lowered) =
      callText func (fillSlots (if func = "record".toList ∧ args.length % 2 = 0 then fieldSlots args
        else args.map fun _ => .filled) lowered) := by
    intro args lowered hlength
    split
    · rw [fillSlots_fieldSlots hlength]
    · have hmap : (args.map fun _ => Slot.filled) = lowered.map fun _ => .filled := by
        rw [map_const', map_const', hlength]
      rw [hmap, fillSlots_filled]
  match args, lowered, hlength with
  | [], [], _ => exact hother rfl
  | [_], [_], _ => exact hother rfl
  | [name, field], [record, value], _ =>
    simp only [aclCall, aclSlots]
    split
    · rfl
    · split <;> rfl
  | [_, field, _], [record, _, value], _ =>
    simp only [aclCall, aclSlots]
    split <;> rfl
  | [_, _, _, _], [_, _, _, _], _ => exact hother rfl
  | [name, _, _, _, _], [_, _, _, value, body], _ =>
    simp only [aclCall, aclName, aclSlots]
    split <;> rfl
  | _ :: _ :: _ :: _ :: _ :: _ :: _, _ :: _ :: _ :: _ :: _ :: _ :: _, hlength =>
    exact hother hlength

/-! ## The names the code looks up out of turn -/

/-- What belongs to the filled slots. -/
def keepFilled {α : Type} : List Slot → List (List α) → List α
  | .filled :: slots, values :: rest => values ++ keepFilled slots rest
  | _ :: slots, _ :: rest => keepFilled slots rest
  | _, _ => []

/-- The names in a body that are looked up among the constants although
they are bound, or no variables at all. -/
def captured (role : Role) (text : List Char) : List (List Char) :=
  match _ : parseSourceCall text with
  | none => if role.resolves (trim text) then [] else [trim text]
  | some (func, args) =>
    keepFilled (aclSlots func args)
      (args.attach.zipWith (fun arg role => captured role arg.1) (argRoles role func args))
termination_by text.length
decreasing_by exact length_lt_of_parseSourceCall ‹_› arg.2

/-! ## Equations -/

section Equations

variable {constants : List (List Char × List Char)} {role : Role} {text func : List Char}

theorem length_armRoles (scope args : List (List Char)) :
    (armRoles scope args).length = args.length := by
  fun_induction armRoles scope args with
  | case1 _ _ rest ih => simp [ih]
  | case2 => simp

theorem length_fieldRoles (scope args : List (List Char)) :
    (fieldRoles scope args).length = args.length := by
  fun_induction fieldRoles scope args with
  | case1 _ _ rest ih => simp [ih]
  | case2 => simp

theorem length_argRoles (role : Role) (func : List Char) (args : List (List Char)) :
    (argRoles role func args).length = args.length := by
  cases role with
  | inert => simp [argRoles]
  | evaluated scope =>
    unfold argRoles evaluatedRoles
    dsimp only
    split
    · repeat' split
      all_goals simp [length_armRoles]
    · repeat' split
      all_goals simp [length_armRoles]
    · split
      next h =>
        simp only [length_cons, length_armRoles, length_tail]
        omega
      split
      · exact length_fieldRoles scope args
      split
      next h => simp [h.2]
      split
      next h =>
        simp only [length_cons, length_map, length_drop]
        omega
      · simp

theorem zipWith_attach {α β γ : Type} (f : α → β → γ) (as : List α) (bs : List β) :
    as.attach.zipWith (fun a b => f a.1 b) bs = as.zipWith f bs := by
  conv_rhs => rw [← attach_map_subtype_val as]
  rw [zipWith_map_left]

theorem sourceExprToAclBody_leaf (hleaf : parseSourceCall text = none) :
    sourceExprToAclBody constants text = constantCall constants (trim text) := by
  rw [sourceExprToAclBody]
  split
  · rfl
  · simp_all

theorem sourceExprToAclBody_call (hcall : parseSourceCall text = some (func, args)) :
    sourceExprToAclBody constants text = callText (aclName func args)
      (fillSlots (aclSlots func args) (args.map (sourceExprToAclBody constants))) := by
  rw [sourceExprToAclBody]
  split
  · simp_all
  · rename_i func' args' hcall'
    cases hcall.symm.trans hcall'
    rw [attach_map_val]
    exact aclCall_eq_fill (by simp)

theorem scopedBody_leaf (hleaf : parseSourceCall text = none) :
    scopedBody constants role text =
      if role.resolves (trim text) then constantCall constants (trim text) else trim text := by
  rw [scopedBody]
  split
  · rfl
  · simp_all

theorem scopedBody_call (hcall : parseSourceCall text = some (func, args)) :
    scopedBody constants role text = callText (aclName func args) (fillSlots (aclSlots func args)
      (args.zipWith (fun arg role => scopedBody constants role arg)
        (argRoles role func args))) := by
  rw [scopedBody]
  split
  · simp_all
  · rename_i func' args' hcall'
    cases hcall.symm.trans hcall'
    rw [zipWith_attach fun arg role => scopedBody constants role arg]
    exact aclCall_eq_fill (by simp [length_argRoles])

theorem captured_leaf (hleaf : parseSourceCall text = none) :
    captured role text = if role.resolves (trim text) then [] else [trim text] := by
  rw [captured]
  split
  · rfl
  · simp_all

theorem captured_call (hcall : parseSourceCall text = some (func, args)) :
    captured role text = keepFilled (aclSlots func args)
      (args.zipWith (fun arg role => captured role arg) (argRoles role func args)) := by
  rw [captured]
  split
  · simp_all
  · rename_i func' args' hcall'
    cases hcall.symm.trans hcall'
    rw [zipWith_attach fun arg role => captured role arg]

end Equations

/-! ## Where nothing is captured the rewritings agree -/

variable {names : List Char → Role → List (List Char)} {g : List Char → Role → List Char}
  {f : List Char → List Char} {roles : List Role} {slots : List Slot}

section Agreement

variable {constants : List (List Char × List Char)}

theorem fillSlots_agree {P : List Char → Prop} (hlength : roles.length = args.length)
    (hagree : ∀ arg ∈ args, ∀ role, (∀ name ∈ names arg role, P name) → f arg = g arg role)
    (hnames : ∀ name ∈ keepFilled slots (args.zipWith names roles), P name) :
    fillSlots slots (args.map f) = fillSlots slots (args.zipWith g roles) := by
  induction args generalizing roles slots with
  | nil => rfl
  | cons arg args ih =>
    obtain ⟨role, roles, rfl⟩ := exists_cons_of_length_eq_add_one hlength
    have hlength : roles.length = args.length := by simpa using hlength
    simp only [map_cons, zipWith_cons_cons] at hnames ⊢
    cases slots with
    | nil => rfl
    | cons slot slots =>
      have ih := @ih roles slots hlength fun arg hmem => hagree arg (.tail _ hmem)
      cases slot with
      | dropped => exact ih hnames
      | fixed text => exact congrArg (text :: ·) (ih hnames)
      | filled =>
        simp only [keepFilled, mem_append] at hnames
        simp only [fillSlots]
        rw [hagree arg mem_cons_self role fun name hname => hnames name (.inl hname),
          ih fun name hname => hnames name (.inr hname)]

theorem sourceExprToAclBody_eq_scopedBody {role : Role} {text : List Char}
    (hnone : ∀ name ∈ captured role text, sourceConstReferenceTarget name constants = none) :
    sourceExprToAclBody constants text = scopedBody constants role text := by
  induction hlength : text.length using Nat.strong_induction_on generalizing text role with
  | _ length ih =>
    cases hparse : parseSourceCall text with
    | none =>
      rw [sourceExprToAclBody_leaf hparse, scopedBody_leaf hparse]
      rw [captured_leaf hparse] at hnone
      split
      · rfl
      next hbound =>
        rw [if_neg hbound] at hnone
        rw [constantCall, hnone _ (mem_singleton_self _)]
    | some call =>
      rw [sourceExprToAclBody_call hparse, scopedBody_call hparse]
      rw [captured_call hparse] at hnone
      refine congrArg _ (fillSlots_agree (length_argRoles role call.1 call.2) ?_ hnone)
      intro arg hmem role hnames
      exact ih _ (hlength ▸ length_lt_of_parseSourceCall hparse hmem) hnames rfl

end Agreement

/-! ## Every captured constant is one bracket more -/

section Count

variable {constants : List (List Char × List Char)}

def brackets (text : List Char) : Nat := text.count '('

def isConstant (constants : List (List Char × List Char)) (name : List Char) : Bool :=
  (sourceConstReferenceTarget name constants).isSome

theorem brackets_callText (func : List Char) (args : List (List Char)) :
    brackets (callText func args) = brackets func + 1 + (args.map brackets).sum := by
  have hcomma : brackets (commaSeparated args) = (args.map brackets).sum := by
    unfold commaSeparated
    induction args with
    | nil => rfl
    | cons arg args ih =>
      cases args with
      | nil => simp
      | cons next args =>
        simp only [intersperse_cons_cons, flatten_cons, map_cons, sum_cons] at ih ⊢
        simp only [brackets, count_append] at ih ⊢
        have hsep : List.count '(' ", ".toList = 0 := by decide
        omega
  simp only [callText, brackets] at hcomma ⊢
  simp
  omega

theorem fillSlots_brackets {p : List Char → Bool} (hlength : roles.length = args.length)
    (hcount : ∀ arg ∈ args, ∀ role, brackets (f arg) = brackets (g arg role) +
      (names arg role).countP p) :
    ((fillSlots slots (args.map f)).map brackets).sum =
      ((fillSlots slots (args.zipWith g roles)).map brackets).sum +
        (keepFilled slots (args.zipWith names roles)).countP p := by
  induction args generalizing roles slots with
  | nil => cases slots <;> simp [keepFilled]
  | cons arg args ih =>
    obtain ⟨role, roles, rfl⟩ := exists_cons_of_length_eq_add_one hlength
    have hlength : roles.length = args.length := by simpa using hlength
    cases slots with
    | nil => rfl
    | cons slot slots =>
      have ih := @ih roles slots hlength fun arg hmem => hcount arg (.tail _ hmem)
      have harg := hcount arg (.head _) role
      simp only [zipWith_cons_cons]
      cases slot with
      | dropped => exact ih
      | fixed text =>
        simp only [fillSlots, keepFilled, map_cons, sum_cons]
        omega
      | filled =>
        simp only [fillSlots, keepFilled, map_cons, sum_cons, countP_append]
        omega

/-- A constant is looked up by a text without brackets and called with
one pair of them. -/
theorem brackets_constantCall
    (hclean : ∀ entry ∈ constants, '(' ∉ entry.1 ∧ '(' ∉ entry.2) (name : List Char) :
    brackets (constantCall constants name) =
      brackets name + if isConstant constants name then 1 else 0 := by
  unfold constantCall isConstant
  cases htarget : sourceConstReferenceTarget name constants with
  | none => simp
  | some constant =>
    have hmem : ∀ {key}, constants.reverse.lookup key = some constant →
      (key, constant) ∈ constants := by
      intro key hfound
      obtain ⟨before, after, hsplit, -⟩ := lookup_eq_some_iff.1 hfound
      exact mem_reverse.1 (hsplit ▸ mem_append_right _ (.head _))
    have hentry : ∃ key, (key, constant) ∈ constants ∧ ('(' ∈ name → '(' ∈ key) := by
      rcases Option.or_eq_some_iff.1 htarget with hfound | ⟨-, hfound⟩
      · exact ⟨name, hmem hfound, id⟩
      · exact ⟨_, hmem hfound, fun h => mem_append_right _ h⟩
    obtain ⟨key, hmem, hkey⟩ := hentry
    obtain ⟨hkeyClean, hconstant⟩ := hclean _ hmem
    have hname : '(' ∉ name := fun h => hkeyClean (hkey h)
    simp [brackets, count_eq_zero.2 hconstant, count_eq_zero.2 hname]

theorem brackets_sourceExprToAclBody
    (hclean : ∀ entry ∈ constants, '(' ∉ entry.1 ∧ '(' ∉ entry.2) (role : Role) (text : List Char) :
    brackets (sourceExprToAclBody constants text) =
      brackets (scopedBody constants role text) +
        (captured role text).countP (isConstant constants) := by
  induction hlength : text.length using Nat.strong_induction_on generalizing text role with
  | _ length ih =>
    cases hparse : parseSourceCall text with
    | none =>
      rw [sourceExprToAclBody_leaf hparse, scopedBody_leaf hparse, captured_leaf hparse]
      split
      · simp
      · rw [brackets_constantCall hclean, countP_singleton]
    | some call =>
      rw [sourceExprToAclBody_call hparse, scopedBody_call hparse, captured_call hparse,
        brackets_callText, brackets_callText,
        fillSlots_brackets (length_argRoles role call.1 call.2) fun arg hmem role =>
          ih _ (hlength ▸ length_lt_of_parseSourceCall hparse hmem) role arg rfl]
      omega

end Count

/-! ## Programs -/

/-- The bodies of a program, each with the names its declaration binds. -/
def SourceProgram.bodies (program : SourceProgram) : List (List (List Char) × List Char) :=
  (program.constants.map fun constant => ([], constant.body)) ++
  (program.functions.map fun function => (function.params.map (·.name), function.body)) ++
  program.tests.map fun test => ([], test.body)

theorem not_mem_of_isSourceIdent {name : List Char} (hname : isSourceIdent name = true) :
    '(' ∉ name := by
  intro hmem
  simp only [isSourceIdent, Bool.and_eq_true, all_eq_true] at hname
  exact absurd (hname.1.2 '(' hmem) (by decide)

theorem sourceConstantNames_clean {program : SourceProgram}
    (hnames : ∀ constant ∈ program.constants, isSourceIdent constant.name = true) :
    ∀ entry ∈ sourceConstantNames program, '(' ∉ entry.1 ∧ '(' ∉ entry.2 := by
  intro entry hentry
  obtain ⟨constant, hconstant, hmem⟩ := mem_flatMap.1 hentry
  have hname := not_mem_of_isSourceIdent (hnames constant hconstant)
  have hbare : '(' ∉ (stripFront "fn." constant.name).getD constant.name := by
    cases hstrip : stripFront "fn." constant.name with
    | none => exact hname
    | some bare =>
      rw [stripFront_eq_some_iff.1 hstrip] at hname
      exact fun h => hname (mem_append_right _ h)
  simp only [sourceConstReferenceNames, mem_append, mem_cons, not_mem_nil, or_false] at hmem
  rcases hmem with (rfl | rfl) | hlocal
  · exact ⟨hbare, hbare⟩
  · exact ⟨hname, hbare⟩
  · split at hlocal
    next before loc hsplit =>
      obtain rfl := mem_singleton.1 hlocal
      refine ⟨fun h => hbare ?_, hbare⟩
      rw [(splitOnce_parts hsplit).1]
      exact mem_append_right _ (.tail _ h)
    next => cases hlocal

/-- In a program whose constants are named by identifiers, a body is
rewritten exactly at the free occurrences of constants if and only if no
name in it that is bound, or no variable, is the name of a constant. -/
theorem aclBody_eq_scopedBody_iff (program : SourceProgram)
    (hnames : ∀ constant ∈ program.constants, isSourceIdent constant.name = true)
    (scope : List (List Char)) (body : List Char) (_ : (scope, body) ∈ program.bodies) :
    program.aclBody body = scopedBody (sourceConstantNames program) (.evaluated scope) body ↔
      ∀ name ∈ captured (.evaluated scope) body,
        sourceConstReferenceTarget name (sourceConstantNames program) = none := by
  constructor
  · intro hsame name hname
    have hcount := brackets_sourceExprToAclBody (sourceConstantNames_clean hnames)
      (.evaluated scope) body
    rw [show sourceExprToAclBody (sourceConstantNames program) body = _ from hsame] at hcount
    have hzero : (captured (.evaluated scope) body).countP
        (isConstant (sourceConstantNames program)) = 0 := by omega
    have hnone := countP_eq_zero.1 hzero name hname
    simpa [isConstant] using hnone
  · exact sourceExprToAclBody_eq_scopedBody

/-- A constant and a parameter of one name. -/
def shadowingProgram : SourceProgram where
  constants := [⟨"fn.x".toList, "Int".toList, "1".toList⟩]
  functions := [⟨"fn.id".toList, [⟨"x".toList, "Int".toList⟩], "Int".toList, "x".toList⟩]

/-- The parameter is compiled to a call of the constant. -/
theorem shadowingProgram_captured :
    (["x".toList], "x".toList) ∈ shadowingProgram.bodies ∧
    shadowingProgram.aclBody "x".toList = "x()".toList ∧
    scopedBody (sourceConstantNames shadowingProgram) (.evaluated ["x".toList]) "x".toList =
      "x".toList := by
  refine ⟨by decide, ?_, ?_⟩
  · decide +kernel
  · decide +kernel

/-- Beside a parameter and a let of other names the constant is called. -/
theorem aclBody_eq_scopedBody_distinct :
    let body := "let(z, y, add(z, x))".toList
    let program : SourceProgram :=
      { shadowingProgram with
        functions := [⟨"fn.id".toList, [⟨"y".toList, "Int".toList⟩], "Int".toList, body⟩] }
    program.aclBody body =
      scopedBody (sourceConstantNames program) (.evaluated ["y".toList]) body := by
  intro body program
  refine (aclBody_eq_scopedBody_iff program (by decide +kernel) ["y".toList] body (by decide)).2 ?_
  decide +kernel

end Ail.Cli
