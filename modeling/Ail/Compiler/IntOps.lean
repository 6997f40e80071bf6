import Ail.Compiler.CoreIr
import Ail.Lib.MachineInt

/-!
# Integer primitives, folded and executed

The calls that constant folding knows (`fold_call` in
`optimize/const_fold.rs`). Each is computed twice in the source: by the
optimizer with the checked, saturating and wrapping operations of the
host language, and by the code the backend emits (`wasm_emit/int.rs`,
`emit_i64_primitive_call`), which tests for overflow by hand.

`foldInts` and `runInts` follow the two texts; `runInts_of_foldInts` says
that they agree wherever the optimizer folds.
-/

namespace Ail.Compiler

open Lib Int64

inductive IntOp where
  | add | sub | mul | div | rem | and | or | xor | bitNot
  | shiftLeft | shiftRight | shiftRightUnsigned
  | min | max | absOr | negOr | saturatingNeg
  | wrappingAdd | wrappingSub | wrappingMul | wrappingNeg
  | addOr | subOr | mulOr | saturatingAdd | saturatingSub | saturatingMul
  | divOr | remOr | clamp
  | eq | ne | lt | le | gt | ge

/-- The names each primitive answers to. -/
def intOpNames : List (IntOp × List String) :=
  [(.add, ["i64.add", "+", "add"]), (.sub, ["i64.sub", "-", "sub"]),
   (.mul, ["i64.mul", "*", "mul"]), (.div, ["i64.div_s", "/", "div"]),
   (.rem, ["i64.rem_s", "%", "mod"]), (.and, ["i64.and", "and", "int.bit_and", "int_bit_and"]),
   (.or, ["i64.or", "or", "int.bit_or", "int_bit_or"]),
   (.xor, ["i64.xor", "xor", "int.bit_xor", "int_bit_xor"]),
   (.bitNot, ["int.bit_not", "int_bit_not"]), (.shiftLeft, ["int.shift_left", "int_shift_left"]),
   (.shiftRight, ["int.shift_right", "int_shift_right"]),
   (.shiftRightUnsigned, ["int.shift_right_unsigned", "int_shift_right_unsigned"]),
   (.min, ["int.min", "int_min"]), (.max, ["int.max", "int_max"]),
   (.absOr, ["int.abs_or", "int_abs_or"]), (.negOr, ["int.neg_or", "int_neg_or"]),
   (.saturatingNeg, ["int.saturating_neg", "int_saturating_neg"]),
   (.wrappingAdd, ["int.wrapping_add", "int_wrapping_add"]),
   (.wrappingSub, ["int.wrapping_sub", "int_wrapping_sub"]),
   (.wrappingMul, ["int.wrapping_mul", "int_wrapping_mul"]),
   (.wrappingNeg, ["int.wrapping_neg", "int_wrapping_neg"]),
   (.addOr, ["int.add_or", "int_add_or"]), (.subOr, ["int.sub_or", "int_sub_or"]),
   (.mulOr, ["int.mul_or", "int_mul_or"]),
   (.saturatingAdd, ["int.saturating_add", "int_saturating_add"]),
   (.saturatingSub, ["int.saturating_sub", "int_saturating_sub"]),
   (.saturatingMul, ["int.saturating_mul", "int_saturating_mul"]),
   (.divOr, ["int.div_or", "int_div_or"]), (.remOr, ["int.rem_or", "int_rem_or"]),
   (.clamp, ["int.clamp", "int_clamp"]), (.eq, ["i64.eq", "==", "eq"]),
   (.ne, ["i64.ne", "!=", "ne"]), (.lt, ["i64.lt_s", "<", "lt"]), (.le, ["i64.le_s", "<=", "le"]),
   (.gt, ["i64.gt_s", ">", "gt"]), (.ge, ["i64.ge_s", ">=", "ge"])]

def intOp (func : String) : Option IntOp :=
  (intOpNames.find? (func ∈ ·.2)).map (·.1)

/-! ## Shifts -/

variable (value : Int64)

def shl (count : Nat) : Int64 := .ofBitVec (value.toBitVec <<< count)

def sshr (count : Nat) : Int64 := .ofBitVec (value.toBitVec.sshiftRight count)

def ushr (count : Nat) : Int64 := .ofBitVec (value.toBitVec >>> count)

/-! ## Folding -/

variable (a b : Int64)

def checkedDiv : Option Int64 :=
  if b = 0 then none else checked (a.toInt.tdiv b.toInt)

/-- `None` also where the quotient would overflow. -/
def checkedRem : Option Int64 :=
  if b = 0 ∨ (a = Int64.minValue ∧ b = -1) then none else some (a % b)

/-- The count of a wrapping shift by `amount as u32`. -/
def wrappingCount (amount : Int64) : Nat := amount.toUInt64.toUInt32.toNat % 64

/-- The table of `fold_call`, from the operands' values on. -/
def foldInts : IntOp → List Int64 → Option LiteralValue
  | .add, [a, b] => some (.int (a + b))
  | .sub, [a, b] => some (.int (a - b))
  | .mul, [a, b] => some (.int (a * b))
  | .div, [a, b] => (checkedDiv a b).map .int
  | .rem, [a, b] => (checkedRem a b).map .int
  | .and, [a, b] => some (.int (a &&& b))
  | .or, [a, b] => some (.int (a ||| b))
  | .xor, [a, b] => some (.int (a ^^^ b))
  | .bitNot, [value] => some (.int (~~~value))
  | .shiftLeft, [value, amount] => some (.int (shl value (wrappingCount amount)))
  | .shiftRight, [value, amount] => some (.int (sshr value (wrappingCount amount)))
  | .shiftRightUnsigned, [value, amount] => some (.int (ushr value (wrappingCount amount)))
  | .min, [a, b] => some (.int (min a b))
  | .max, [a, b] => some (.int (max a b))
  | .absOr, [value, fallback] => some (.int ((checked |value.toInt|).getD fallback))
  | .negOr, [value, fallback] => some (.int ((checked (-value.toInt)).getD fallback))
  | .saturatingNeg, [value] => some (.int (saturated (-value.toInt)))
  | .wrappingAdd, [left, right] => some (.int (left + right))
  | .wrappingSub, [left, right] => some (.int (left - right))
  | .wrappingMul, [left, right] => some (.int (left * right))
  | .wrappingNeg, [value] => some (.int (-value))
  | .addOr, [left, right, fallback] =>
    some (.int ((checked (left.toInt + right.toInt)).getD fallback))
  | .subOr, [left, right, fallback] =>
    some (.int ((checked (left.toInt - right.toInt)).getD fallback))
  | .mulOr, [left, right, fallback] =>
    some (.int ((checked (left.toInt * right.toInt)).getD fallback))
  | .saturatingAdd, [left, right] => some (.int (saturated (left.toInt + right.toInt)))
  | .saturatingSub, [left, right] => some (.int (saturated (left.toInt - right.toInt)))
  | .saturatingMul, [left, right] => some (.int (saturated (left.toInt * right.toInt)))
  | .divOr, [value, divisor, fallback] => some (.int ((checkedDiv value divisor).getD fallback))
  | .remOr, [value, divisor, fallback] => some (.int ((checkedRem value divisor).getD fallback))
  | .clamp, [value, low, high] =>
    some (.int (if value < low then low else if high < value then high else value))
  | .eq, [a, b] => some (.bool (a == b))
  | .ne, [a, b] => some (.bool (a != b))
  | .lt, [a, b] => some (.bool (a < b))
  | .le, [a, b] => some (.bool (a ≤ b))
  | .gt, [a, b] => some (.bool (b < a))
  | .ge, [a, b] => some (.bool (b ≤ a))
  | _, _ => none

/-! ## Execution -/

/-- The count of an emitted shift: wrapped to 32 bits, extended, and then
taken modulo the width by the instruction. -/
def emittedCount (amount : Int64) : Nat :=
  ((amount.toBitVec.setWidth 32).setWidth 64).toNat % 64

variable (left right : Int64)

/-- The emitted product test: `overflow` is the value used where the
product does not divide back. -/
def emittedMul (overflow : Int64) : Int64 :=
  let product := left * right
  if right = 0 then product
  else if product = Int64.minValue ∧ right = -1 then overflow
  else if product / right ≠ left then overflow else product

/-- What the emitted instructions leave on the stack: nothing (`none`
inside) where they trap; `none` if no primitive of that arity exists. -/
def runInts : IntOp → List Int64 → Option (Option LiteralValue)
  | .add, [a, b] | .wrappingAdd, [a, b] => some (some (.int (a + b)))
  | .sub, [a, b] | .wrappingSub, [a, b] => some (some (.int (a - b)))
  | .mul, [a, b] | .wrappingMul, [a, b] => some (some (.int (a * b)))
  | .div, [a, b] =>
    some (if b = 0 ∨ (a = Int64.minValue ∧ b = -1) then none else some (.int (a / b)))
  | .rem, [a, b] => some (if b = 0 then none else some (.int (a % b)))
  | .and, [a, b] => some (some (.int (a &&& b)))
  | .or, [a, b] => some (some (.int (a ||| b)))
  | .xor, [a, b] => some (some (.int (a ^^^ b)))
  | .bitNot, [value] => some (some (.int (value ^^^ -1)))
  | .shiftLeft, [value, amount] => some (some (.int (shl value (emittedCount amount))))
  | .shiftRight, [value, amount] => some (some (.int (sshr value (emittedCount amount))))
  | .shiftRightUnsigned, [value, amount] => some (some (.int (ushr value (emittedCount amount))))
  | .min, [a, b] => some (some (.int (if a ≤ b then a else b)))
  | .max, [a, b] => some (some (.int (if b ≤ a then a else b)))
  | .absOr, [value, fallback] =>
    some (some (.int (if value = Int64.minValue then fallback
      else if value < 0 then 0 - value else value)))
  | .negOr, [value, fallback] =>
    some (some (.int (if value = Int64.minValue then fallback else 0 - value)))
  | .saturatingNeg, [value] =>
    some (some (.int (if value = Int64.minValue then Int64.maxValue else 0 - value)))
  | .wrappingNeg, [value] => some (some (.int (0 - value)))
  | .addOr, [left, right, fallback] =>
    let sum := left + right
    some (some (.int
      (if (0 < right ∧ sum < left) ∨ (right < 0 ∧ left < sum) then fallback else sum)))
  | .subOr, [left, right, fallback] =>
    let diff := left - right
    some (some (.int
      (if (0 < right ∧ left < diff) ∨ (right < 0 ∧ diff < left) then fallback else diff)))
  | .mulOr, [left, right, fallback] => some (some (.int (emittedMul left right fallback)))
  | .saturatingAdd, [left, right] =>
    let sum := left + right
    some (some (.int
      (if 0 < right ∧ sum < left then Int64.maxValue
      else if right < 0 ∧ left < sum then Int64.minValue else sum)))
  | .saturatingSub, [left, right] =>
    let diff := left - right
    some (some (.int
      (if 0 < right ∧ left < diff then Int64.minValue
      else if right < 0 ∧ diff < left then Int64.maxValue else diff)))
  | .saturatingMul, [left, right] =>
    some (some (.int (emittedMul left right
      (if left < 0 ↔ right < 0 then Int64.maxValue else Int64.minValue))))
  | .divOr, [value, divisor, fallback] =>
    some (some (.int
      (if divisor = 0 then fallback
      else if value = Int64.minValue ∧ divisor = -1 then fallback else value / divisor)))
  | .remOr, [value, divisor, fallback] =>
    some (some (.int
      (if divisor = 0 then fallback
      else if value = Int64.minValue ∧ divisor = -1 then fallback else value % divisor)))
  | .clamp, [value, low, high] =>
    some (some (.int (if value < low then low else if high < value then high else value)))
  | .eq, [a, b] => some (some (.bool (a == b)))
  | .ne, [a, b] => some (some (.bool (a != b)))
  | .lt, [a, b] => some (some (.bool (a < b)))
  | .le, [a, b] => some (some (.bool (a ≤ b)))
  | .gt, [a, b] => some (some (.bool (b < a)))
  | .ge, [a, b] => some (some (.bool (b ≤ a)))
  | _, _ => none

/-! ## Agreement -/

theorem max_eq : max a b = if b ≤ a then a else b := by
  rw [← toInt_inj, show max a b = if a ≤ b then b else a from rfl]
  simp only [le_iff_toInt_le]
  split_ifs <;> omega

variable (fallback : Int64)

theorem getD_checked_add :
    (checked (left.toInt + right.toInt)).getD fallback =
      if (0 < right ∧ left + right < left) ∨ (right < 0 ∧ left < left + right) then fallback
      else left + right := by
  rw [checked_add]
  split_ifs <;> rfl

theorem getD_checked_sub :
    (checked (left.toInt - right.toInt)).getD fallback =
      if (0 < right ∧ left < left - right) ∨ (right < 0 ∧ left - right < left) then fallback
      else left - right := by
  rw [checked_sub]
  split_ifs <;> rfl

theorem getD_checked_mul :
    (checked (left.toInt * right.toInt)).getD fallback = emittedMul left right fallback := by
  rw [checked_mul, emittedMul]
  split_ifs <;> rfl

theorem getD_checked_neg :
    (checked (-value.toInt)).getD fallback =
      if value = minValue then fallback else 0 - value := by
  rw [checked_neg]
  split_ifs <;> rfl

theorem getD_checked_abs :
    (checked |value.toInt|).getD fallback =
      if value = minValue then fallback else if value < 0 then 0 - value else value := by
  rw [checked_abs]
  split_ifs <;> rfl

theorem saturated_mul_eq :
    saturated (left.toInt * right.toInt) =
      emittedMul left right (if left < 0 ↔ right < 0 then maxValue else minValue) :=
  saturated_mul left right

theorem checkedDiv_eq :
    checkedDiv a b = if b = 0 ∨ (a = minValue ∧ b = -1) then none else some (a / b) := by
  rw [checkedDiv, checked_tdiv]
  split_ifs <;> first | rfl | tauto

theorem getD_checkedDiv (divisor fallback : Int64) :
    (checkedDiv value divisor).getD fallback =
      if divisor = 0 then fallback
      else if value = minValue ∧ divisor = -1 then fallback else value / divisor := by
  rw [checkedDiv_eq]
  split_ifs <;> first | rfl | tauto

theorem getD_checkedRem (divisor fallback : Int64) :
    (checkedRem value divisor).getD fallback =
      if divisor = 0 then fallback
      else if value = minValue ∧ divisor = -1 then fallback else value % divisor := by
  rw [checkedRem]
  split_ifs <;> first | rfl | tauto

variable {value : LiteralValue}

theorem runInts_div {a b : Int64} (hfold : (checkedDiv a b).map .int = some value) :
    runInts .div [a, b] = some (some value) := by
  rw [checkedDiv_eq] at hfold
  rw [runInts]
  split_ifs at hfold ⊢
  · cases hfold
  · exact congrArg some hfold

theorem runInts_rem {a b : Int64} (hfold : (checkedRem a b).map .int = some value) :
    runInts .rem [a, b] = some (some value) := by
  rw [checkedRem] at hfold
  rw [runInts]
  split_ifs at hfold with hzero
  · cases hfold
  · rw [if_neg fun hb => hzero (.inl hb)]
    exact congrArg some hfold

/-- Where the optimizer folds a call, the emitted code computes the same
literal and does not trap. -/
theorem runInts_of_foldInts {op : IntOp} {ints : List Int64}
    (hfold : foldInts op ints = some value) : runInts op ints = some (some value) := by
  unfold foldInts at hfold
  split at hfold
  -- Only division and remainder can refuse to fold; the rest is one equation each.
  all_goals first
    | contradiction
    | exact runInts_div hfold
    | exact runInts_rem hfold
    | (rw [← hfold]; rfl)
    | (rw [← hfold]
       simp [runInts, max_eq, getD_checked_add, getD_checked_sub, getD_checked_mul,
         getD_checked_neg, getD_checked_abs, getD_checkedDiv, getD_checkedRem, saturated_add,
         saturated_sub, saturated_neg, saturated_mul_eq])

end Ail.Compiler
