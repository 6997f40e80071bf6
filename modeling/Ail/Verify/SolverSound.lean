import Ail.Verify.Solver

/-!
# When `Proven` can be trusted

What a predicate and a constraint say is fixed by assignments of integers
to identifiers. A bound that the solver reads off satisfied constraints
is a bound (`lowerBound_le`); it may be too low, and nothing bounds a
variable from above. So a comparison evaluated on the bound is sound if a
larger left side can only help it: `>=` and `>`. For the other operators
`simpleSolver_sound_iff` says which predicates remain.
-/

namespace Ail.Verify

open Ail.Core Lib List FactDb CmpOp

/-! ## Meaning -/

/-- The comparison an operator means, over all integers. -/
def CmpOp.Rel : CmpOp → Int → Int → Prop
  | ge, l, r => l ≥ r
  | le, l, r => l ≤ r
  | eq, l, r => l = r
  | ne, l, r => l ≠ r
  | gt, l, r => l > r
  | lt, l, r => l < r

instance : (op : CmpOp) → (l r : Int) → Decidable (op.Rel l r)
  | .ge, l, r => inferInstanceAs (Decidable (l ≥ r))
  | .le, l, r => inferInstanceAs (Decidable (l ≤ r))
  | .eq, l, r => inferInstanceAs (Decidable (l = r))
  | .ne, l, r => inferInstanceAs (Decidable (l ≠ r))
  | .gt, l, r => inferInstanceAs (Decidable (l > r))
  | .lt, l, r => inferInstanceAs (Decidable (l < r))

variable {op : CmpOp}

theorem CmpOp.compare_iff {l r : Int64} : op.compare l r = true ↔ op.Rel l.toInt r.toInt := by
  cases op <;>
    simp [compare, Rel, Int64.le_iff_toInt_le, Int64.lt_iff_toInt_lt, ← Int64.toInt_inj]

/-- The integer a side of a predicate stands for. A literal stands for
itself under every assignment. -/
def value (assignment : List Char → Int) (text : List Char) : Int :=
  match parseInt text with
  | some n => n.toInt
  | none => assignment text

def SimplePred.Holds (assignment : List Char → Int) (p : SimplePred) : Prop :=
  p.op.Rel (value assignment p.lhs) (value assignment p.rhs)

instance (assignment : List Char → Int) (p : SimplePred) : Decidable (p.Holds assignment) :=
  inferInstanceAs (Decidable (p.op.Rel _ _))

/-- The constraints the solver is documented to understand. -/
inductive Constraint where
  /-- `x >= N`. -/
  | atLeast (x : List Char) (n : Int64)
  /-- `x > N`. -/
  | above (x : List Char) (n : Int64)
  /-- `x == N`. -/
  | exactly (x : List Char) (n : Int64)
  /-- `x = y`. -/
  | same (x y : List Char)
  /-- `x = y + z`. -/
  | sum (x y z : List Char)

def Constraint.Holds (assignment : List Char → Int) : Constraint → Prop
  | atLeast x n => value assignment x ≥ n.toInt
  | above x n => value assignment x > n.toInt
  | exactly x n => value assignment x = n.toInt
  | same x y => value assignment x = value assignment y
  | sum x y z => value assignment x = value assignment y + value assignment z

instance (assignment : List Char → Int) :
    (constraint : Constraint) → Decidable (constraint.Holds assignment)
  | .atLeast x n => inferInstanceAs (Decidable (value assignment x ≥ n.toInt))
  | .above x n => inferInstanceAs (Decidable (value assignment x > n.toInt))
  | .exactly x n => inferInstanceAs (Decidable (value assignment x = n.toInt))
  | .same x y => inferInstanceAs (Decidable (value assignment x = value assignment y))
  | .sum x y z =>
    inferInstanceAs (Decidable (value assignment x = value assignment y + value assignment z))

section Reading

variable (tables : CharTables)

/-- The text as a comparison of a variable with a literal. -/
def readComparison (text : List Char) : Option Constraint :=
  match parseSimplePred tables text with
  | none => none
  | some p =>
    match p.op, parseInt p.lhs, parseInt p.rhs with
    | .ge, none, some n => some (.atLeast p.lhs n)
    | .gt, none, some n => some (.above p.lhs n)
    | .eq, none, some n => some (.exactly p.lhs n)
    | _, _, _ => none

/-- The text as an equation between a name and a name or a sum of two. -/
def readEquation (text : List Char) : Option Constraint :=
  match splitOnce '=' text with
  | none => none
  | some (before, after) =>
    let x := trim before
    if isName tables x then
      if isName tables (trim after) then some (.same x (trim after))
      else
        match splitOnce '+' (trim after) with
        | some (a, b) =>
          if isName tables (trim a) && isName tables (trim b) then
            some (.sum x (trim a) (trim b))
          else none
        | none => none
    else none

/-- The assignment satisfies each constraint of a supported form. Texts
of other forms say nothing. -/
def Satisfies (assignment : List Char → Int) (constraints : List String) : Prop :=
  ∀ text ∈ constraints, ∀ constraint,
    readComparison tables (trim text.toList) = some constraint ∨
      readEquation tables (trim text.toList) = some constraint →
    constraint.Holds assignment

end Reading

/-! ## Texts without operators -/

variable {tables : CharTables} {c : Char} {text : String}

/-- The first characters of the operators. -/
def opChars : List Char := ['<', '>', '=', '!']

theorem forall_mem_opChars {P : Char → Prop} :
    (∀ c ∈ opChars, P c) ↔ P '<' ∧ P '>' ∧ P '=' ∧ P '!' := by
  simp [opChars]

theorem isIdentChar_of_mem_opChars (hmem : c ∈ opChars) : tables.isIdentChar c = false := by
  have hsym : ∀ c ∈ opChars, c.toNat < 128 ∧ (c.isAlphanum || c == '_' || c == '.') = false :=
    forall_mem_opChars.2 (by decide)
  obtain ⟨hascii, hident⟩ := hsym c hmem
  rwa [CharTables.isIdentChar, tables.isAlphanumeric_ascii c hascii]

theorem notMem_of_isName {text : List Char} (hname : isName tables text = true)
    (hop : c ∈ opChars) : c ∉ text := by
  intro hmem
  rw [isName, Bool.and_eq_true, all_eq_true] at hname
  have hident := hname.1 c hmem
  rw [isIdentChar_of_mem_opChars hop] at hident
  cases hident

variable {p : SimplePred} {pred rhs : List Char} {obligation : ProofObligation}
  {constraints : List String}

theorem splitAtOp_eq_some (hsplit : splitAtOp tables pred op = some p) :
    ∃ before after, pred = before ++ op.text ++ after ∧ p = ⟨trim before, op, trim after⟩ ∧
      trim before ≠ [] ∧ trim after ≠ [] ∧
      validSide tables (trim before) = true ∧ validSide tables (trim after) = true := by
  unfold splitAtOp at hsplit
  split at hsplit
  next => exact nomatch hsplit
  next before after hparts =>
    simp only at hsplit
    split at hsplit
    next => exact nomatch hsplit
    next hne =>
      split at hsplit
      next hvalid =>
        rw [Bool.and_eq_true] at hvalid
        rw [not_or] at hne
        exact ⟨before, after, eq_of_splitOnceText hparts, (Option.some.inj hsplit).symm,
          hne.1, hne.2,
          hvalid.1, hvalid.2⟩
      next => exact nomatch hsplit

theorem parseSimplePred_eq_some (hparse : parseSimplePred tables pred = some p) :
    ∃ before after, trim pred = before ++ p.op.text ++ after ∧
      p.lhs = trim before ∧ p.rhs = trim after ∧ p.lhs ≠ [] ∧ p.rhs ≠ [] ∧
      validSide tables p.lhs = true ∧ validSide tables p.rhs = true := by
  obtain ⟨op, -, hsplit⟩ := exists_of_findSome?_eq_some hparse
  obtain ⟨before, after, heq, rfl, hrest⟩ := splitAtOp_eq_some hsplit
  exact ⟨before, after, heq, rfl, rfl, hrest⟩

@[simp] theorem parseSimplePred_trim (pred : List Char) :
    parseSimplePred tables (trim pred) = parseSimplePred tables pred := by
  simp [parseSimplePred]

/-- An accepted predicate has an operator in it. -/
theorem exists_opChar (hparse : parseSimplePred tables pred = some p) :
    ∃ c ∈ opChars, c ∈ pred := by
  obtain ⟨before, after, heq, -⟩ := parseSimplePred_eq_some hparse
  have hhead : ∃ c ∈ opChars, c ∈ p.op.text := by
    cases p.op <;> simp [opChars, text]
  obtain ⟨c, hop, hmem⟩ := hhead
  exact ⟨c, hop, mem_of_mem_trim (by simp [heq, hmem])⟩

/-- What stands inside `known(…)` and what stands around it. -/
theorem mem_of_argumentOf {known : String} {ident : List Char}
    (harg : argumentOf known pred = some ident) (hmem : c ∈ pred) :
    c ∈ known.toList ∨ isWhitespace c = true ∨ c = '(' ∨ c = ')' ∨ c ∈ ident := by
  unfold argumentOf at harg
  split at harg
  next => exact nomatch harg
  next rest hrest =>
    rw [isPrefixOf?_eq_some_iff_append_eq] at hrest
    rw [← hrest, mem_append] at hmem
    obtain hmem | hmem := hmem
    · exact .inl hmem
    obtain hmem | hblank := mem_trim_or_blank hmem
    · split at harg
      next inner htrim =>
        split at harg
        next hlast =>
          cases harg
          obtain ⟨init, rfl⟩ := getLast?_eq_some_iff.1 hlast
          rw [htrim] at hmem
          simp only [mem_cons, mem_append, not_mem_nil, or_false] at hmem
          obtain rfl | hmem | rfl := hmem
          · simp
          · obtain hmem | hblank := mem_trim_or_blank hmem
            · simp [hmem]
            · simp [hblank]
          · simp
        next => exact nomatch harg
      next => exact nomatch harg
    · simp [hblank]

/-- Predicates known by their shape are not comparisons. -/
theorem isKnownPattern_eq_false {known : List String}
    (hknown : ∀ name ∈ known, ∀ c ∈ opChars, c ∉ name.toList)
    (hparse : parseSimplePred tables pred = some p) : isKnownPattern tables known pred = false := by
  rw [← parseSimplePred_trim] at hparse
  obtain ⟨c, hop, hmem⟩ := exists_opChar hparse
  rw [isKnownPattern, any_eq_false]
  intro name hname
  split
  next ident harg =>
    intro hident
    have hsym : ∀ c ∈ opChars, isWhitespace c = false ∧ c ≠ '(' ∧ c ≠ ')' :=
      forall_mem_opChars.2 (by decide)
    obtain ⟨hblank, hopen, hclose⟩ := hsym c hop
    obtain hin | hin | hin | hin | hin := mem_of_argumentOf harg hmem
    · exact hknown name hname c hop hin
    · rw [hblank] at hin
      cases hin
    · exact hopen hin
    · exact hclose hin
    · exact notMem_of_isName hident hop hin
  next => simp

/-- Without constraints the solver proves valid comparisons only. -/
theorem holds_of_simpleSolve (hparse : parseSimplePred tables obligation.predicate.toList = some p)
    (hproven : simpleSolve tables obligation = .proven) (assignment : List Char → Int) :
    p.Holds assignment := by
  unfold simpleSolve at hproven
  simp only at hproven
  rw [← parseSimplePred_trim] at hparse
  split at hproven
  next htrue =>
    rw [htrue] at hparse
    have hnone : parseSimplePred tables "true".toList = none := rfl
    cases hparse
  rw [isKnownRefinementPattern,
    isKnownPattern_eq_false (by simp only [forall_mem_opChars]; decide) hparse,
    isDomainObligationPattern,
    isKnownPattern_eq_false (by simp only [forall_mem_opChars]; decide) hparse] at hproven
  simp only [Bool.false_eq_true, if_false] at hproven
  split at hproven
  next hconstant =>
    rw [isConstantTautology, hparse] at hconstant
    simp only at hconstant
    split at hconstant
    next l r hl hr =>
      simpa [SimplePred.Holds, value, hl, hr] using compare_iff.1 hconstant
    next => exact nomatch hconstant
  split at hproven
  next hreflexive =>
    rw [isReflexiveTautology, hparse] at hreflexive
    simp only [Bool.and_eq_true, decide_eq_true_eq, Bool.or_eq_true] at hreflexive
    rw [SimplePred.Holds, hreflexive.1]
    obtain (hop | hop) | hop := hreflexive.2 <;> rw [hop] <;> simp [CmpOp.Rel]
  next => exact nomatch hproven

/-! ## Bounds read off the constraints -/

variable {n : Int64}

namespace FactDb

variable {assignment : List Char → Int}

/-- Every bound of the database is a bound of the assignment. -/
def Sound (tables : CharTables) (assignment : List Char → Int) (db : FactDb) : Prop :=
  ∀ x n, db.lb.lookup x = some n →
    isName tables x = true ∧ (n = Int64.minValue ∨ n.toInt ≤ value assignment x)

variable {db : FactDb} {x : List Char}

/-- A variable on the left of an accepted predicate is a name. -/
theorem isName_lhs (hparse : parseSimplePred tables pred = some p) (hvar : parseInt p.lhs = none) :
    isName tables p.lhs = true := by
  obtain ⟨-, -, -, -, -, -, -, hvalid, -⟩ := parseSimplePred_eq_some hparse
  simpa [validSide, hvar] using hvalid

/-- A sum is not a name. -/
theorem isName_eq_false_of_splitOnce {a b : List Char} (hparts : splitOnce '+' rhs = some (a, b)) :
    isName tables rhs = false := by
  have hplus : tables.isIdentChar '+' = false := by
    rw [CharTables.isIdentChar, tables.isAlphanumeric_ascii '+' (by decide)]
    decide
  simp [isName, (splitOnce_parts hparts).1, hplus]

section

variable (hdb : db.Sound tables assignment)
include hdb

section

variable (hname : isName tables x = true) (hn : n = Int64.minValue ∨ n.toInt ≤ value assignment x)
include hname hn

theorem Sound.insert : Sound tables assignment ⟨db.lb.insert x n⟩ := by
  intro y m hlookup
  by_cases hy : y = x
  · subst hy
    rw [AList.lookup_insert] at hlookup
    cases hlookup
    exact ⟨hname, hn⟩
  · rw [AList.lookup_insert_ne hy] at hlookup
    exact hdb y m hlookup

theorem Sound.raise : Sound tables assignment (db.raise x n) := by
  refine hdb.insert hname ?_
  split
  · exact hn
  · cases hlookup : db.lb.lookup x with
    | none => exact .inl rfl
    | some entry => exact (hdb x entry hlookup).2

end

theorem Sound.of_lowerBound (hbound : db.lowerBound x = some n) :
    isName tables x = true ∧ n ≠ Int64.minValue ∧ n.toInt ≤ value assignment x := by
  obtain ⟨hlookup, hne⟩ := Option.filter_eq_some_iff.1 hbound
  have hne : n ≠ Int64.minValue := by simpa using hne
  obtain ⟨hname, hmin | hle⟩ := hdb x n hlookup
  · exact absurd hmin hne
  · exact ⟨hname, hne, hle⟩

/-- A comparison that holds keeps the facts sound. -/
theorem Sound.addBound
    (hsat : ∀ constraint, readComparison tables (trim text.toList) = some constraint →
      constraint.Holds assignment) : Sound tables assignment (db.addBound tables text) := by
  unfold FactDb.addBound
  cases hparse : parseSimplePred tables (trim text.toList) with
  | none => exact hdb
  | some p =>
    simp only
    cases hval : parseInt p.rhs with
    | none => exact hdb
    | some val =>
      cases hvar : parseInt p.lhs with
      | some l => exact hdb
      | none =>
        have hname := isName_lhs hparse hvar
        cases hop : p.op with
        | eq =>
          have hholds := hsat (.exactly p.lhs val)
            (by simp [readComparison, hparse, hop, hvar, hval])
          exact hdb.insert hname (.inr hholds.ge)
        | ge =>
          have hholds := hsat (.atLeast p.lhs val)
            (by simp [readComparison, hparse, hop, hvar, hval])
          exact hdb.raise hname (.inr hholds)
        | gt =>
          have hholds : value assignment p.lhs > val.toInt :=
            hsat (.above p.lhs val) (by simp [readComparison, hparse, hop, hvar, hval])
          exact hdb.raise hname ((toInt_saturated_le _).imp_right fun hle => by omega)
        | le => exact hdb
        | ne => exact hdb
        | lt => exact hdb

/-- The bound of a right side, and the equation that makes it one. -/
theorem Sound.of_rhsBound (hbound : db.rhsBound tables rhs = some n) :
    (isName tables rhs = true ∧ (n = Int64.minValue ∨ n.toInt ≤ value assignment rhs)) ∨
      ∃ a b, splitOnce '+' rhs = some (a, b) ∧ isName tables (trim a) = true ∧
        isName tables (trim b) = true ∧ (n = Int64.minValue ∨
          n.toInt ≤ value assignment (trim a) + value assignment (trim b)) := by
  unfold rhsBound at hbound
  simp only at hbound
  split at hbound
  next bound hsum =>
    cases hbound
    split at hsum
    next => exact nomatch hsum
    next a b hparts =>
      split at hsum
      next x y hx hy =>
        cases hsum
        obtain ⟨hnameA, -, hleA⟩ := hdb.of_lowerBound hx
        obtain ⟨hnameB, -, hleB⟩ := hdb.of_lowerBound hy
        exact .inr ⟨a, b, hparts, hnameA, hnameB,
          (toInt_saturated_le _).imp_right fun hle => by omega⟩
      next => exact nomatch hsum
  next =>
    split at hbound
    next hname => exact .inl ⟨hname, .inr (hdb.of_lowerBound hbound).2.2⟩
    next => exact nomatch hbound

theorem Sound.addAssignment
    (hsat : ∀ constraint, readEquation tables (trim text.toList) = some constraint →
      constraint.Holds assignment) : Sound tables assignment (db.addAssignment tables text) := by
  unfold FactDb.addAssignment
  split
  next => exact hdb
  next before after hparts =>
    split
    next => exact hdb
    next =>
      split
      next hname =>
        split
        next bound hbound =>
          refine hdb.raise hname ?_
          obtain ⟨hrhs, hle⟩ | ⟨a, b, hsum, hnameA, hnameB, hle⟩ := hdb.of_rhsBound hbound
          · have hholds := hsat (.same (trim before) (trim after))
              (by simp [readEquation, hparts, hname, hrhs])
            rwa [← hholds] at hle
          · have hholds := hsat (.sum (trim before) (trim a) (trim b))
              (by simp [readEquation, hparts, hname, hnameA, hnameB, hsum,
                isName_eq_false_of_splitOnce hsum])
            rwa [← hholds] at hle
        next => exact hdb
      next => exact hdb

end

theorem sound_foldl {add : FactDb → String → FactDb} (hadd : ∀ text ∈ constraints, ∀ db : FactDb,
      db.Sound tables assignment → Sound tables assignment (add db text))
    (hdb : db.Sound tables assignment) : Sound tables assignment (constraints.foldl add db) :=
  List.foldlRecOn (motive := Sound tables assignment) constraints add hdb
    fun db hdb text hmem => hadd text hmem db hdb

/-- Satisfied constraints give a sound database. -/
theorem sound_fromConstraints (hsat : Satisfies tables assignment constraints) :
    Sound tables assignment (fromConstraints tables constraints) :=
  sound_foldl (fun text hmem _ hdb => hdb.addAssignment fun k hread =>
    hsat text hmem k (.inr hread))
    (sound_foldl (fun text hmem _ hdb => hdb.addBound fun k hread => hsat text hmem k (.inl hread))
      fun _ _ hlookup => nomatch hlookup)

/-- A derived bound is met by every solution. -/
theorem lowerBound_le (hsat : Satisfies tables assignment constraints)
    (hbound : (fromConstraints tables constraints).lowerBound x = some n) :
    -2 ^ 63 < n.toInt ∧ n.toInt ≤ value assignment x := by
  obtain ⟨-, hne, hle⟩ := (sound_fromConstraints hsat).of_lowerBound hbound
  refine ⟨lt_of_le_of_ne n.le_toInt fun heq => hne ?_, hle⟩
  exact Int64.toInt_inj.1 (by rw [← heq]; rfl)

end FactDb

/-! ## Which predicates can be trusted -/

/-- What a lower bound of the left side decides is decided for the left
side: the operator is `>=` or `>`, or the left side is a literal, or the
right side is none, or it is so small that the bound that would mislead
is `i64::MIN`, which stands for "no bound". -/
def LowerBoundsSuffice (p : SimplePred) : Prop :=
  p.op = .ge ∨ p.op = .gt ∨ parseInt p.lhs ≠ none ∨
    ∀ r, parseInt p.rhs = some r →
      (p.op = .le ∨ p.op = .eq → r.toInt = -2 ^ 63) ∧
      (p.op = .lt ∨ p.op = .ne → r.toInt ≤ -2 ^ 63 + 1)

instance (p : SimplePred) : Decidable (LowerBoundsSuffice p) :=
  inferInstanceAs (Decidable (_ ∨ _ ∨ _ ∨ ∀ r, parseInt p.rhs = some r → _))

/-- The comparison of a lower bound, carried over to what it bounds. -/
theorem CmpOp.Rel.of_lowerBound {l v r : Int} (hle : l ≤ v) (hrel : op.Rel l r)
    (hmin : -2 ^ 63 < l)
    (hsuffice : op = .ge ∨ op = .gt ∨ (op = .le ∨ op = .eq → r = -2 ^ 63) ∧
      (op = .lt ∨ op = .ne → r ≤ -2 ^ 63 + 1)) : op.Rel v r := by
  cases op <;> simp [Rel] at hrel hsuffice ⊢ <;> omega

variable {assignment : List Char → Int}

/-- What is proven holds in every solution. -/
theorem holds_of_provePred (hparse : parseSimplePred tables pred = some p)
    (hsat : Satisfies tables assignment constraints)
    (hproven : (fromConstraints tables constraints).provePred tables pred = some true)
    (hsuffice : LowerBoundsSuffice p) : p.Holds assignment := by
  rw [provePred, hparse] at hproven
  simp only at hproven
  split at hproven
  next l r hl hr =>
    have hrel := compare_iff.1 (Option.some.inj hproven)
    cases hvar : parseInt p.lhs with
    | some n =>
      rw [hvar, Option.some_or] at hl
      simpa [SimplePred.Holds, value, hvar, hr, hl] using hrel
    | none =>
      rw [hvar] at hl
      obtain ⟨hmin, hle⟩ := lowerBound_le hsat hl
      have hholds : p.op.Rel (value assignment p.lhs) r.toInt := by
        refine hrel.of_lowerBound hle hmin ?_
        obtain hop | hop | hlit | hedge := hsuffice
        · exact .inl hop
        · exact .inr (.inl hop)
        · exact absurd hvar hlit
        · exact .inr (.inr (hedge r hr))
      simpa [SimplePred.Holds, value, hr] using hholds
  next => exact nomatch hproven

/-! ## Which predicates cannot -/

/-- The constraint `x >= N`, written out. -/
def atLeastText (x num : List Char) : String := String.ofList (x ++ ' ' :: '>' :: '=' :: ' ' :: num)

section Misleading

variable {num : List Char}

/-- `x` is a variable and `num` a literal, as an accepted predicate has
them. -/
structure Sides (tables : CharTables) (x num : List Char) (n : Int64) : Prop where
  name : isName tables x = true
  variable_ : parseInt x = none
  trimmed : trim x = x
  literal : parseInt num = some n
  nonempty : num ≠ []
  trimmedNum : trim num = num

variable (h : Sides tables x num n)
include h

theorem Sides.ne_nil : x ≠ [] := by
  rintro rfl
  cases h.name

theorem Sides.trim_text :
    trim (atLeastText x num).toList = x ++ ' ' :: '>' :: '=' :: ' ' :: num := by
  rw [atLeastText, String.toList_ofList]
  refine trim_eq_self ?_ ?_
  · intro c hc
    obtain ⟨d, rest, rfl⟩ := exists_cons_of_ne_nil h.ne_nil
    obtain rfl : d = c := by simpa using hc
    exact @head?_trim d (d :: rest) (by rw [h.trimmed]; rfl)
  · intro c hc
    obtain ⟨d, rest, rfl⟩ := exists_cons_of_ne_nil h.nonempty
    refine @getLast?_trim c (d :: rest) ?_
    rw [h.trimmedNum]
    simpa using hc

theorem Sides.parse_text :
    parseSimplePred tables (trim (atLeastText x num).toList) = some ⟨x, .ge, num⟩ := by
  have hnot : '>' ∉ x ++ [' '] := by
    simp [notMem_of_isName h.name (by decide : '>' ∈ opChars)]
  have hsplit : splitOnceText ge.text (x ++ ' ' :: '>' :: '=' :: ' ' :: num) =
      some (x ++ [' '], ' ' :: num) := by
    have hfirst := @splitOnceText_append '>' ['='] (' ' :: num) _ hnot
    simp only [append_assoc] at hfirst
    exact hfirst
  have hop : splitAtOp tables (x ++ ' ' :: '>' :: '=' :: ' ' :: num) .ge = some ⟨x, .ge, num⟩ := by
    have hblank : isWhitespace ' ' = true := by decide
    rw [splitAtOp, hsplit]
    simp [trim_concat_blank hblank, trim_blank_cons hblank, h.trimmed, h.trimmedNum, h.ne_nil,
      h.nonempty, validSide, h.name, h.literal]
  rw [parseSimplePred_trim, parseSimplePred, h.trim_text, CmpOp.all, findSome?_cons, hop]

/-- The first `=` of the text belongs to the operator. -/
theorem Sides.splitOnce_text :
    splitOnce '=' (trim (atLeastText x num).toList) = some (x ++ [' ', '>'], ' ' :: num) := by
  have hnot : '=' ∉ x ++ [' ', '>'] := by
    simp [notMem_of_isName h.name (by decide : '=' ∈ opChars)]
  have hfirst := splitOnce_append (' ' :: num) hnot
  rw [h.trim_text]
  simpa using hfirst

theorem Sides.satisfies_text (hle : n.toInt ≤ value assignment x) :
    Satisfies tables assignment [atLeastText x num] := by
  intro text hmem constraint hread
  rw [mem_singleton] at hmem
  subst hmem
  obtain hread | hread := hread
  · simp only [readComparison, h.parse_text, h.variable_, h.literal, Option.some.injEq] at hread
    subst hread
    exact hle
  · -- As an equation its left side would be `x >`.
    have hnot : isName tables (trim (x ++ [' ', '>'])) = false := by
      have hmem : '>' ∈ trim (x ++ [' ', '>']) :=
        (mem_trim_or_blank (by simp)).resolve_right (by decide)
      by_contra hname
      exact notMem_of_isName (by simpa using hname) (by decide : '>' ∈ opChars) hmem
    simp [readEquation, h.splitOnce_text, hnot] at hread

theorem Sides.lowerBound_text (hmin : n ≠ Int64.minValue) :
    (fromConstraints tables [atLeastText x num]).lowerBound x = some n := by
  have hraise : n > Int64.minValue := by
    have hle := n.le_toInt
    have hne : n.toInt ≠ -2 ^ 63 := fun heq => hmin (Int64.toInt_inj.1 heq)
    rw [gt_iff_lt, Int64.lt_iff_toInt_lt, Int64.toInt_minValue]
    omega
  have hfirst : empty.addBound tables (atLeastText x num) = empty.raise x n := by
    simp [FactDb.addBound, h.parse_text, h.literal, h.variable_]
  have hsecond : ∀ db : FactDb, db.addAssignment tables (atLeastText x num) = db := by
    intro db
    simp [FactDb.addAssignment, h.splitOnce_text]
  rw [fromConstraints, foldl_cons, foldl_cons, hfirst, hsecond]
  have hlookup : (empty.raise x n).lb.lookup x = some n := by
    rw [raise, AList.lookup_insert]
    simp [empty, hraise]
  simp [lowerBound, hlookup, hmin]

end Misleading

/-- The literal next to `i64::MIN`, the least bound the solver keeps. -/
def leastBoundText : List Char := "-9223372036854775807".toList

/-- A predicate that holds of a lower bound and not of what it bounds is
proven from the constraint that states the bound. -/
theorem exists_misled {num : List Char} {r : Int64} {v : Int}
    (hparse : parseSimplePred tables obligation.predicate.toList = some p)
    (hsides : Sides tables p.lhs num n) (hmin : n ≠ Int64.minValue) (hr : parseInt p.rhs = some r)
    (hbound : p.op.Rel n.toInt r.toInt) (hle : n.toInt ≤ v) (hfails : ¬ p.op.Rel v r.toInt) :
    ∃ constraints assignment,
      (simpleSolver tables).solveWithConstraints obligation constraints = .proven ∧
        Satisfies tables assignment constraints ∧ ¬ p.Holds assignment := by
  have hvalue : value (fun _ => v) p.lhs = v := by simp [value, hsides.variable_]
  refine ⟨[atLeastText p.lhs num], fun _ => v, ?_, hsides.satisfies_text (by rwa [hvalue]), ?_⟩
  · have hproven : (fromConstraints tables [atLeastText p.lhs num]).provePred tables
        (trim obligation.predicate.toList) = some true := by
      simp [provePred, hparse, hsides.variable_, hsides.lowerBound_text hmin, hr,
        compare_iff.2 hbound]
    simp only [simpleSolver, simpleSolveWithConstraints, hproven]
    split
    · assumption
    · simp
  · have hright : value (fun _ => v) p.rhs = r.toInt := by simp [value, hr]
    rwa [SimplePred.Holds, hvalue, hright]

/-- A predicate is proven by itself, or from the bounds the constraints
give. -/
theorem holds_of_solveWithConstraints
    (hparse : parseSimplePred tables obligation.predicate.toList = some p)
    (hproven : (simpleSolver tables).solveWithConstraints obligation constraints = .proven)
    (hsat : Satisfies tables assignment constraints) (hsuffice : LowerBoundsSuffice p) :
    p.Holds assignment := by
  simp only [simpleSolver, simpleSolveWithConstraints] at hproven
  split at hproven
  next hbase => exact holds_of_simpleSolve hparse hbase assignment
  next hbase =>
    split at hproven
    next => exact absurd hproven hbase
    next =>
      split at hproven
      next htrue => exact holds_of_provePred (by rwa [parseSimplePred_trim]) hsat htrue hsuffice
      next => exact absurd hproven hbase

/-- `Proven` from constraints implies the predicate under every
assignment that satisfies them, for exactly those comparisons that a
lower bound of the left side can decide. -/
theorem simpleSolver_sound_iff {obligation : ProofObligation} {p : SimplePred}
    (hparse : parseSimplePred tables obligation.predicate.toList = some p) :
    (∀ constraints assignment,
        (simpleSolver tables).solveWithConstraints obligation constraints = .proven →
        Satisfies tables assignment constraints → p.Holds assignment) ↔
      LowerBoundsSuffice p := by
  refine ⟨fun hsound => ?_, fun hsuffice constraints assignment hproven hsat =>
    holds_of_solveWithConstraints hparse hproven hsat hsuffice⟩
  by_contra hnot
  simp only [LowerBoundsSuffice, not_or, not_not, not_forall] at hnot
  obtain ⟨-, -, hvar, r, hr, hedge⟩ := hnot
  obtain ⟨before, after, -, hlhs, hrhs, -, hne, -⟩ := parseSimplePred_eq_some hparse
  have htrim : trim p.lhs = p.lhs := by rw [hlhs, trim_trim]
  have hname := isName_lhs hparse hvar
  have hleast : Sides tables p.lhs leastBoundText (Int64.ofInt (-9223372036854775807)) :=
    ⟨hname, hvar, htrim, rfl, by decide, rfl⟩
  have hown : Sides tables p.lhs p.rhs r := ⟨hname, hvar, htrim, hr, hne, by rw [hrhs, trim_trim]⟩
  have hrange := r.le_toInt
  have hbound : (Int64.ofInt (-9223372036854775807)).toInt = -2 ^ 63 + 1 := rfl
  have hrefute : ∀ {num n v}, Sides tables p.lhs num n → n ≠ Int64.minValue →
      p.op.Rel n.toInt r.toInt → n.toInt ≤ v → p.op.Rel v r.toInt := by
    intro num n v hsides hmin hrel hle
    by_contra hfails
    obtain ⟨constraints, assignment, hproven, hsat, hnot⟩ :=
      exists_misled hparse hsides hmin hr hrel hle hfails
    exact hnot (hsound constraints assignment hproven hsat)
  refine hedge ⟨?_, ?_⟩
  · rintro (hop | hop) <;> by_contra hne
    · have hrel := @hrefute _ _ (r.toInt + 1) hleast (by decide)
        (by rw [hop, CmpOp.Rel]; omega) (by omega)
      rw [hop, CmpOp.Rel] at hrel
      omega
    · have hrel := @hrefute _ _ (r.toInt + 1) hown (fun heq => hne (by rw [heq]; rfl))
        (by rw [hop, CmpOp.Rel]) (by omega)
      rw [hop, CmpOp.Rel] at hrel
      omega
  · rintro (hop | hop) <;> by_contra hlt
    · have hrel := @hrefute _ _ r.toInt hleast (by decide) (by rw [hop, CmpOp.Rel]; omega)
        (by omega)
      rw [hop, CmpOp.Rel] at hrel
      omega
    · have hrel := @hrefute _ _ r.toInt hleast (by decide) (by rw [hop, CmpOp.Rel]; omega)
        (by omega)
      rw [hop] at hrel
      exact hrel rfl

/-- Proving that a result is positive is trustworthy. -/
theorem simpleSolver_sound_positive :
    parseSimplePred CharTables.ascii "x > 0".toList = some ⟨['x'], .gt, ['0']⟩ ∧
      ∀ constraints assignment,
        (simpleSolver CharTables.ascii).solveWithConstraints ⟨"x > 0", .ensures, "f"⟩ constraints =
          .proven →
        Satisfies CharTables.ascii assignment constraints →
        SimplePred.Holds assignment ⟨['x'], .gt, ['0']⟩ :=
  ⟨rfl, (@simpleSolver_sound_iff _ ⟨"x > 0", .ensures, "f"⟩ _ rfl).2 (.inr (.inl rfl))⟩

/-- From `x >= 0` the solver proves `x <= 0`; one satisfies the former
and not the latter. -/
theorem simpleSolver_proves_upper_bound :
    (simpleSolver CharTables.ascii).solveWithConstraints ⟨"x <= 0", .ensures, "f"⟩ ["x >= 0"] =
        .proven ∧
      parseSimplePred CharTables.ascii "x <= 0".toList = some ⟨['x'], .le, ['0']⟩ ∧
      Satisfies CharTables.ascii (fun _ => 1) ["x >= 0"] ∧
      ¬ SimplePred.Holds (fun _ => 1) ⟨['x'], .le, ['0']⟩ := by
  refine ⟨rfl, rfl, ?_, by decide⟩
  intro text hmem constraint hread
  rw [mem_singleton] at hmem
  subst hmem
  obtain hread | hread := hread
  · have hstated : readComparison CharTables.ascii (trim "x >= 0".toList) =
        some (.atLeast ['x'] (Int64.ofInt 0)) := rfl
    rw [hstated, Option.some.injEq] at hread
    subst hread
    decide
  · have hstated : readEquation CharTables.ascii (trim "x >= 0".toList) = none := rfl
    cases hread

end Ail.Verify
