import Ail.Compiler.ExprParser
import Ail.Compiler.Shape
import Ail.Lib.Outcome

/-!
# What the parser returns

The parser never runs out of the fuel it is given, and every expression
it returns is a surface expression.
-/

namespace Ail.Compiler

open Lib List Failure

/-- A failure that is the parser's own: an error or a panic. -/
def Failure.Genuine (failure : Failure) : Prop := failure ≠ .outOfFuel

def Failure.IsError (failure : Failure) : Prop := ∃ message, failure = .error message

/-- A step that returns a value with `P` and reads at least one character. -/
def Reads {α : Type} (P : α → Prop) (cursor : Cursor) : Except Failure (α × Cursor) → Prop :=
  Ensures (fun result => P result.1 ∧ result.2.rest.length < cursor.rest.length) Failure.Genuine

@[simp] theorem genuine_error (message : String) : (error message).Genuine := nofun

@[simp] theorem genuine_panic : panic.Genuine := nofun

/-! ## Lexical level -/

theorem skipWs_length : ∀ (cs : List Char) (pos : Nat),
    Ensures (fun cursor => cursor.rest.length ≤ cs.length) Genuine (skipWs cs pos)
  | [], _ => Nat.le_refl _
  | c :: cs, pos => by
    unfold skipWs
    split
    · split
      · exact (skipWs_length cs (pos + 1)).mono fun cursor hle => Nat.le_succ_of_le hle
      · exact genuine_panic
    · exact Nat.le_refl _

theorem length_consume {expected : Char} {cursor next : Cursor}
    (h : consume expected cursor = some next) : next.rest.length + 1 = cursor.rest.length := by
  obtain ⟨rest, pos⟩ := cursor
  unfold consume at h
  cases rest with
  | nil => cases h
  | cons c cs =>
    dsimp only at h
    split at h
    · cases h
      rfl
    · cases h

theorem length_dropWhile_lt {p : Char → Bool} {cs : List Char} (h : cs.takeWhile p ≠ []) :
    (cs.dropWhile p).length < cs.length := by
  have hpos : 0 < (cs.takeWhile p).length := length_pos_iff.2 h
  have hsplit : (cs.takeWhile p).length + (cs.dropWhile p).length = cs.length := by
    rw [← length_append, takeWhile_append_dropWhile]
  omega

theorem parseIdent_reads (cursor : Cursor) : Reads (fun _ => True) cursor (parseIdent cursor) := by
  unfold parseIdent
  dsimp only
  split
  · exact genuine_error _
  · rename_i hname
    exact ⟨trivial, length_dropWhile_lt hname⟩

theorem parseStringTail_length (std : RustStd) (cs : List Char) (pos : Nat) (result : List Char) :
    Ensures (fun result => result.2.rest.length ≤ cs.length) Genuine
      (parseStringTail std cs pos result) := by
  fun_induction parseStringTail std cs pos result with
  | case1 | case7 | case8 => exact genuine_error _
  | case2 => exact Nat.le_succ _
  | case3 _ _ _ ih | case4 _ _ _ ih | case5 _ _ _ ih | case6 _ _ _ ih =>
    exact ih.mono fun _ hle => by simp only [length_cons]; omega
  | case9 => rename_i ih; exact ih.mono fun _ hle => by simp only [length_cons]; omega

theorem parseNumber_reads (std : RustStd) (cursor : Cursor) :
    Ensures (fun result => ∀ value next, result = some (value, next) →
        next.rest.length < cursor.rest.length) Genuine (parseNumber std cursor) := by
  unfold parseNumber
  extract_lets sign unsigned digits after fraction text
  have hunsigned : unsigned.length ≤ cursor.rest.length := by
    simp only [unsigned, length_drop]
    omega
  split
  · exact fun _ _ h => nomatch h
  · rename_i hdigits
    have hafter : after.length < unsigned.length := length_dropWhile_lt hdigits
    split
    · split
      · exact genuine_error _
      · intro value next h
        cases h
        have hrest := (dropWhile_suffix (l := after.drop 1) Char.isDigit).length_le
        simp only [length_drop] at hrest
        show ((after.drop 1).dropWhile Char.isDigit).length < _
        omega
    · split
      · exact genuine_error _
      · intro value next h
        cases h
        exact Nat.lt_of_lt_of_le hafter hunsigned

/-! ## Forms -/

/-- A form built, or an error. -/
abbrev Builds (m : Except Failure CoreExpr) : Prop := Ensures Surface Failure.IsError m

section Arity

variable {func : String} {args : List CoreExpr} (hargs : ∀ arg ∈ args, Surface arg)
include hargs

theorem expectArity0_builds {e : CoreExpr} (he : Surface e) :
    Builds (expectArity0 func args e) := by
  unfold expectArity0
  split
  · exact he
  · exact ⟨_, rfl⟩

theorem expectArity1_builds {make : CoreExpr → Except Failure CoreExpr}
    (hmake : ∀ a, Surface a → Builds (make a)) : Builds (expectArity1 func args make) := by
  unfold expectArity1
  split
  · exact hmake _ (hargs _ (by simp))
  · exact ⟨_, rfl⟩

theorem expectArity2_builds {make : CoreExpr → CoreExpr → Except Failure CoreExpr}
    (hmake : ∀ a b, Surface a → Surface b → Builds (make a b)) :
    Builds (expectArity2 func args make) := by
  unfold expectArity2
  split
  · exact hmake _ _ (hargs _ (by simp)) (hargs _ (by simp))
  · exact ⟨_, rfl⟩

theorem expectArity3_builds {make : CoreExpr → CoreExpr → CoreExpr → Except Failure CoreExpr}
    (hmake : ∀ a b c, Surface a → Surface b → Surface c → Builds (make a b c)) :
    Builds (expectArity3 func args make) := by
  unfold expectArity3
  split
  · exact hmake _ _ _ (hargs _ (by simp)) (hargs _ (by simp)) (hargs _ (by simp))
  · exact ⟨_, rfl⟩

end Arity

theorem expectName_ensures (context : String) (e : CoreExpr) :
    Ensures (fun _ => True) IsError (expectName context e) := by
  unfold expectName
  split
  · trivial
  · exact ⟨_, rfl⟩

theorem mapM_expectName_ensures (context : String) (es : List CoreExpr) :
    Ensures (fun _ => True) IsError (es.mapM (expectName context)) := by
  induction es with
  | nil => trivial
  | cons e es ih =>
    rw [mapM_cons]
    exact (expectName_ensures context e).bind fun _ _ => ih.bind fun _ _ => trivial

theorem renderMatchPattern_ensures (e : CoreExpr) :
    Ensures (fun _ => True) IsError (renderMatchPattern e) := by
  -- the second motive is about the arguments of a constructor pattern
  refine renderMatchPattern.induct (fun e => Ensures (fun _ => True) IsError (renderMatchPattern e))
    (fun es => Ensures (fun _ => True) IsError (renderMatchPatterns es))
    ?_ ?_ ?_ ?_ ?_ ?_ ?_ ?_ ?_ e
  · exact fun _ => trivial
  · exact fun _ => trivial
  · exact fun _ => trivial
  · intro func args ih
    exact ih.bind fun _ _ => trivial
  · exact fun _ => trivial
  · intro tag inner ih
    exact ih.bind fun _ _ => trivial
  · intros
    rw [renderMatchPattern]
    · exact ⟨_, rfl⟩
    all_goals assumption
  · trivial
  · intro e es ihe ihes
    exact ihe.bind fun _ _ => ihes.bind fun _ _ => trivial

section Forms

variable {args : List CoreExpr} (hargs : ∀ arg ∈ args, Surface arg)
include hargs

theorem pairUp_ensures {κ : Type} {key : CoreExpr → Except Failure κ} {P : κ → Prop}
    (hkey : ∀ e, Surface e → Ensures P IsError (key e)) :
    Ensures (fun pairs => ∀ pair ∈ pairs, P pair.1 ∧ Surface pair.2) IsError
      (pairUp key args) := by
  fun_induction pairUp key args with
  | case1 k v rest ih =>
    simp only [forall_mem_cons] at hargs
    refine (hkey k hargs.1).bind fun k hk => (ih hargs.2.2).bind fun pairs hpairs => ?_
    exact forall_mem_cons.2 ⟨⟨hk, hargs.2.1⟩, hpairs⟩
  | case2 => exact fun _ h => nomatch h

theorem parseMatchCall_builds : Builds (parseMatchCall args) := by
  unfold parseMatchCall
  split
  · rename_i scrutinee rest
    split
    · exact ⟨_, rfl⟩
    · simp only [forall_mem_cons] at hargs
      refine (pairUp_ensures hargs.2 fun e _ => renderMatchPattern_ensures e).bind
        fun arms harms => ?_
      refine .shaped rfl (by simpa using hargs.1) fun body hbody => ?_
      obtain ⟨arm, harm, rfl⟩ := mem_map.1 hbody
      exact (harms arm harm).2
  · exact ⟨_, rfl⟩

theorem parseRecordCall_builds : Builds (parseRecordCall args) := by
  unfold parseRecordCall
  split
  · exact ⟨_, rfl⟩
  · refine (pairUp_ensures hargs fun e _ => expectName_ensures _ e).bind fun fields hfields => ?_
    refine .shaped rfl (fun operand hmem => ?_) (by simp)
    obtain ⟨field, hfield, rfl⟩ := mem_map.1 hmem
    exact (hfields field hfield).2

theorem parseMapCall_builds : Builds (parseMapCall args) := by
  unfold parseMapCall
  split
  · exact ⟨_, rfl⟩
  · have hkey : ∀ e, Surface e → Ensures Surface IsError (.ok e) := fun _ he => he
    refine (pairUp_ensures hargs hkey).bind fun entries hentries => ?_
    refine .shaped rfl (fun operand hmem => ?_) (by simp)
    obtain ⟨entry, hentry, hoperand⟩ := mem_flatMap.1 hmem
    have ⟨hk, hv⟩ := hentries entry hentry
    rcases mem_pair.1 hoperand with rfl | rfl
    · exact hk
    · exact hv

theorem parseVariantCall_builds : Builds (parseVariantCall args) := by
  unfold parseVariantCall
  split
  · exact (expectName_ensures _ _).bind fun _ _ => .shaped rfl (by simp) (by simp)
  · refine (expectName_ensures _ _).bind fun _ _ => .shaped rfl ?_ (by simp)
    simpa using hargs _ (by simp)
  · exact ⟨_, rfl⟩

theorem parseEffectCall_builds : Builds (parseEffectCall args) := by
  unfold parseEffectCall
  split
  · simp only [forall_mem_cons] at hargs
    exact (expectName_ensures _ _).bind fun _ _ => (expectName_ensures _ _).bind fun _ _ =>
      .shaped rfl hargs.2.2 (by simp)
  · exact ⟨_, rfl⟩

theorem parseLambdaCall_builds : Builds (parseLambdaCall args) := by
  unfold parseLambdaCall
  split
  · exact ⟨_, rfl⟩
  · rename_i body params hreverse
    refine (mapM_expectName_ensures _ _).bind fun params _ => .lambda params (hargs body ?_)
    exact mem_reverse.1 (hreverse ▸ (.head _))

theorem exprFromCall_builds (func : String) : Builds (exprFromCall func args) := by
  unfold exprFromCall
  -- the cases stand in the order of the match; neighbours of one arity share a proof
  split
  case h_1 =>
    refine expectArity3_builds hargs fun binding value body _ hvalue hbody => ?_
    split
    · exact .shaped rfl (by simp) (by simp [hvalue, hbody])
    · exact ⟨_, rfl⟩
  case h_3 => exact parseMatchCall_builds hargs
  case h_5 => exact parseRecordCall_builds hargs
  case h_9 => exact parseVariantCall_builds hargs
  case h_36 => exact parseEffectCall_builds hargs
  case h_37 => exact parseLambdaCall_builds hargs
  case h_43 => exact parseMapCall_builds hargs
  case h_6 =>
    exact expectArity2_builds hargs fun record _ hrecord _ =>
      (expectName_ensures _ _).bind fun _ _ => .shaped rfl (by simp [hrecord]) (by simp)
  case h_7 =>
    exact expectArity3_builds hargs fun record _ value hrecord _ hvalue =>
      (expectName_ensures _ _).bind fun _ _ => .shaped rfl (by simp [hrecord, hvalue]) (by simp)
  case h_38 =>
    exact expectArity3_builds hargs fun _ collection body _ hcollection hbody =>
      (expectName_ensures _ _).bind fun _ _ => .shaped rfl (by simp [hcollection]) (by simp [hbody])
  case h_31 =>
    exact expectArity2_builds hargs fun _ _ hcond hbody => .whileLoop none hcond hbody
  case h_34 => exact expectArity1_builds hargs fun _ hvalue => .returnWith hvalue
  case h_29 =>
    refine expectArity1_builds hargs fun a _ => ?_
    unfold parseAbort
    split
    · exact .shaped rfl (by simp) (by simp)
    · exact .shaped rfl (by simp) (by simp)
    · exact ⟨_, rfl⟩
  case h_35 =>
    refine expectArity1_builds hargs fun a _ => ?_
    unfold parsePrint
    split
    · refine .shaped rfl (fun operand hmem => ?_) (by simp)
      obtain rfl := mem_singleton.1 hmem
      exact .shaped rfl (by simp) (by simp)
    · exact ⟨_, rfl⟩
  case h_8 | h_10 | h_44 | h_46 => exact .shaped rfl hargs (by simp)
  case h_4 | h_23 | h_33 => exact expectArity0_builds hargs (.shaped rfl (by simp) (by simp))
  case h_22 | h_24 | h_25 | h_26 | h_30 | h_32 | h_40 | h_41 =>
    exact expectArity1_builds hargs fun a ha => .shaped rfl (by simp [ha]) (by simp [ha])
  case h_2 | h_39 =>
    exact expectArity3_builds hargs fun a b c ha hb hc =>
      .shaped rfl (by simp [ha, hb, hc]) (by simp [hb, hc])
  all_goals
    exact expectArity2_builds hargs fun a b ha hb => .shaped rfl (by simp [ha, hb]) (by simp [hb])

end Forms

/-! ## The parser -/

theorem surface_identExpr (name : String) : Surface (identExpr name) := by
  unfold identExpr
  split
  · exact .shaped rfl (by simp) (by simp)
  · exact .shaped rfl (by simp) (by simp)
  · exact .var name

/-- An invariant of the cursor that the lexical level keeps, and how it
fails. -/
structure Lexes (I : Cursor → Prop) (E : Failure → Prop) : Prop where
  error : ∀ message, E (.error message)
  skipWs : ∀ cursor, I cursor → Ensures I E (skipWs cursor.rest cursor.pos)
  consume : ∀ delimiter ∈ ['(', ')', ','], ∀ cursor next,
    consume delimiter cursor = some next → I cursor → I next
  ident : ∀ cursor, I cursor → Ensures (fun result => I result.2) E (parseIdent cursor)
  string : ∀ std text pos, I ⟨'"' :: text, pos⟩ →
    Ensures (fun result => I result.2) E (parseStringTail std text (pos + 1) [])
  number : ∀ std cursor, I cursor →
    Ensures (fun result => ∀ value next, result = some (value, next) →
      I next) E (parseNumber std cursor)

variable {E : Failure → Prop} {I : Cursor → Prop}

/-- With more fuel than characters an expression is read, and with one
more the arguments of a call. The whole parser keeps what the lexical
level keeps. -/
theorem parseExprAt_reads (lexes : Lexes I E) (std : RustStd) (fuel : Nat) :
    (∀ cursor : Cursor, I cursor → cursor.rest.length < fuel →
      Ensures (fun result => (Surface result.1 ∧ result.2.rest.length < cursor.rest.length) ∧
        I result.2)
        (fun failure => failure.Genuine ∧ E failure) (parseExprAt std fuel cursor)) ∧
    (∀ cursor : Cursor, I cursor → cursor.rest.length + 1 < fuel →
      Ensures (fun result => ((∀ arg ∈ result.1, Surface arg) ∧
          result.2.rest.length < cursor.rest.length) ∧ I result.2)
        (fun failure => failure.Genuine ∧ E failure) (parseArgs std fuel cursor)) := by
  have herror : ∀ message, (error message).Genuine ∧ E (.error message) :=
    fun message => ⟨genuine_error message, lexes.error message⟩
  have hskip := fun cursor hI => (skipWs_length cursor.rest cursor.pos).and (lexes.skipWs cursor hI)
  have hcall : ∀ {args}, (∀ arg ∈ args, Surface arg) → ∀ ident, Ensures Surface
      (fun failure => failure.Genuine ∧ E failure) (exprFromCall ident args) := fun hargs ident =>
    (exprFromCall_builds hargs ident).weaken fun _ ⟨message, heq⟩ => heq ▸ herror message
  induction fuel with
  | zero => exact ⟨fun _ _ h => absurd h (Nat.not_lt_zero _),
      fun _ _ h => absurd h (Nat.not_lt_zero _)⟩
  | succ fuel ih =>
    obtain ⟨ihExpr, ihArgs⟩ := ih
    refine ⟨fun cursor hI hfuel => ?_, fun cursor hI hfuel => ?_⟩
    · refine (hskip cursor hI).bind fun start ⟨hstart, hIstart⟩ => ?_
      split
      · exact herror _
      · rename_i text htext
        obtain ⟨rest, pos⟩ := start
        obtain rfl : rest = '"' :: text := htext
        refine ((parseStringTail_length std text (pos + 1) []).and
          (lexes.string std text pos hIstart)).bind fun result ⟨hresult, hIresult⟩ => ?_
        simp only [length_cons] at hstart
        exact ⟨⟨.shaped rfl (by simp) (by simp), by dsimp only; omega⟩, hIresult⟩
      · refine ((parseNumber_reads std start).and (lexes.number std start hIstart)).bind
          fun result ⟨hresult, hIresult⟩ => ?_
        split
        next value next _ =>
          have hnext := hresult value next rfl
          exact ⟨⟨.shaped rfl (by simp) (by simp), Nat.lt_of_lt_of_le hnext hstart⟩,
            hIresult value next rfl⟩
        next =>
          refine ((parseIdent_reads start).and (lexes.ident start hIstart)).bind
            fun ⟨ident, afterIdent⟩ ⟨⟨_, hident⟩, hIident⟩ => ?_
          refine (hskip afterIdent hIident).bind fun afterWs ⟨hws, hIws⟩ => ?_
          dsimp only at hident hws ⊢
          split
          · exact ⟨⟨surface_identExpr ident, by dsimp only; omega⟩, hIws⟩
          · rename_i opened hopen
            have hopened := length_consume hopen
            have hIopened := lexes.consume _ (by simp) _ _ hopen hIws
            refine (hskip opened hIopened).bind fun inside ⟨hinside, hIinside⟩ => ?_
            split
            · rename_i closed hclose
              have hclosed := length_consume hclose
              exact (hcall (by simp) ident).bind fun e he =>
                ⟨⟨he, by dsimp only; omega⟩, lexes.consume _ (by simp) _ _ hclose hIinside⟩
            · refine (ihArgs inside hIinside (by omega)).bind
                fun ⟨args, next⟩ ⟨⟨hargs, hnext⟩, hInext⟩ => ?_
              dsimp only at hargs hnext ⊢
              exact (hcall hargs ident).bind fun e he => ⟨⟨he, by dsimp only; omega⟩, hInext⟩
    · refine (ihExpr cursor hI (by omega)).bind fun ⟨arg, afterArg⟩ ⟨⟨harg, hread⟩, hIarg⟩ => ?_
      refine (hskip afterArg hIarg).bind fun afterWs ⟨hws, hIws⟩ => ?_
      dsimp only at harg hread hws ⊢
      split
      · rename_i closed hclose
        have hclosed := length_consume hclose
        exact ⟨⟨by simpa using harg, by dsimp only; omega⟩,
          lexes.consume _ (by simp) _ _ hclose hIws⟩
      · split
        · rename_i afterComma hcomma
          have hcommaLength := length_consume hcomma
          refine (ihArgs afterComma (lexes.consume _ (by simp) _ _ hcomma hIws) (by omega)).bind
            fun ⟨args, next⟩ ⟨⟨hargs, hnext⟩, hInext⟩ => ?_
          dsimp only at hargs hnext ⊢
          exact ⟨⟨forall_mem_cons.2 ⟨harg, hargs⟩, by dsimp only; omega⟩, hInext⟩
        · exact herror _

/-- Of the whole text: an expression, or a failure of both kinds. -/
theorem parseExpr_of_lexes (lexes : Lexes I E) (std : RustStd) (input : String)
    (hI : I ⟨input.toList, 0⟩) :
    Ensures Surface (fun failure => failure.Genuine ∧ E failure) (parseExpr std input) := by
  refine ((parseExprAt_reads lexes std (input.toList.length + 1)).1 ⟨input.toList, 0⟩ hI
    (Nat.lt_succ_self _)).bind fun ⟨e, cursor⟩ ⟨⟨he, _⟩, hIcursor⟩ => ?_
  refine ((skipWs_length cursor.rest cursor.pos).and (lexes.skipWs cursor hIcursor)).bind
    fun rest _ => ?_
  split
  · exact ⟨genuine_error _, lexes.error _⟩
  · exact he

/-- Nothing asked of the cursor. -/
theorem lexes_true : Lexes (fun _ => True) fun _ => True := by
  have hany : ∀ {α : Type} {m : Except Failure α}, Ensures (fun _ => True) (fun _ => True) m := by
    intro α m
    cases m <;> trivial
  exact ⟨fun _ => trivial, fun _ _ => hany, fun _ _ _ _ _ _ => trivial, fun _ _ => hany,
    fun _ _ _ _ => hany, fun _ _ _ => hany.mono fun _ _ _ _ _ => trivial⟩

/-- The parser returns a surface expression, or fails on its own account:
its fuel is never what ends it. -/
theorem parseExpr_ensures (std : RustStd) (input : String) :
    Ensures Surface Genuine (parseExpr std input) :=
  (parseExpr_of_lexes lexes_true std input trivial).weaken fun _ h => h.1

end Ail.Compiler
