import Mathlib.Data.String.Basic

/-!
# Byte positions in a text

A text is the list of its characters, and a position counts the bytes of
their UTF-8 encoding. Only some positions are boundaries between two
characters; the text cannot be cut at any other.

`isSome_sliceFrom_iff` is what a scan that moves byte by byte needs: all
positions are boundaries exactly if each character is a single byte.
-/

namespace Ail.Lib

open String (utf8Len utf8Len_cons utf8Len_append)

/-- The text from a position on, if the position is a boundary. -/
def sliceFrom : List Char → Nat → Option (List Char)
  | cs, 0 => some cs
  | [], _ + 1 => none
  | c :: cs, pos + 1 =>
    if c.utf8Size ≤ pos + 1 then sliceFrom cs (pos + 1 - c.utf8Size) else none

/-- All characters take one byte. -/
def IsAscii (cs : List Char) : Prop := ∀ c ∈ cs, c.utf8Size = 1

instance (cs : List Char) : Decidable (IsAscii cs) :=
  decidable_of_iff (cs.all (·.utf8Size = 1) = true) (by simp [IsAscii])

@[simp] theorem sliceFrom_zero (cs : List Char) : sliceFrom cs 0 = some cs := by
  cases cs <;> rfl

variable {cs : List Char} {pos : Nat} {c : Char}

theorem sliceFrom_cons (hpos : 0 < pos) :
    sliceFrom (c :: cs) pos =
      if c.utf8Size ≤ pos then sliceFrom cs (pos - c.utf8Size) else none := by
  obtain ⟨pos, rfl⟩ := Nat.exists_eq_succ_of_ne_zero hpos.ne'
  rfl

/-- A position after a part of the text is one of what follows it. -/
theorem sliceFrom_append_add (before after : List Char) (pos : Nat) :
    sliceFrom (before ++ after) (utf8Len before + pos) = sliceFrom after pos := by
  induction before with
  | nil => simp
  | cons c cs ih =>
    have hsize := c.utf8Size_pos
    rw [List.cons_append, utf8Len_cons, sliceFrom_cons (by omega), if_pos (by omega),
      show utf8Len cs + c.utf8Size + pos - c.utf8Size = utf8Len cs + pos by omega, ih]

@[simp] theorem sliceFrom_append (before after : List Char) :
    sliceFrom (before ++ after) (utf8Len before) = some after := by
  simpa using sliceFrom_append_add before after 0

/-- A position inside the first character is no boundary. -/
theorem sliceFrom_inside (hpos : 0 < pos) (hinside : pos < c.utf8Size) :
    sliceFrom (c :: cs) pos = none := by
  rw [sliceFrom_cons hpos, if_neg (by omega)]

theorem not_isAscii_iff :
    ¬ IsAscii cs ↔ ∃ before c after, cs = before ++ c :: after ∧ 1 < c.utf8Size := by
  simp only [IsAscii, not_forall]
  constructor
  · rintro ⟨c, hmem, hsize⟩
    obtain ⟨before, after, heq⟩ := List.append_of_mem hmem
    have hpos := c.utf8Size_pos
    exact ⟨before, c, after, heq, by omega⟩
  · rintro ⟨before, c, after, rfl, hsize⟩
    exact ⟨c, by simp, by omega⟩

theorem isSome_sliceFrom_of_isAscii (hascii : IsAscii cs) (hpos : pos ≤ utf8Len cs) :
    (sliceFrom cs pos).isSome := by
  induction cs generalizing pos with
  | nil =>
    obtain rfl : pos = 0 := by simpa using hpos
    rfl
  | cons c cs ih =>
    obtain ⟨hsize, hrest⟩ := List.forall_mem_cons.1 hascii
    cases pos with
    | zero => rfl
    | succ pos =>
      rw [utf8Len_cons] at hpos
      rw [sliceFrom_cons (by omega), if_pos (by omega)]
      exact ih hrest (by omega)

/-- A text can be cut at every position exactly if it is ASCII. -/
theorem isSome_sliceFrom_iff : (∀ pos < utf8Len cs, (sliceFrom cs pos).isSome) ↔ IsAscii cs := by
  refine ⟨fun hall => ?_, fun hascii pos hpos => isSome_sliceFrom_of_isAscii hascii hpos.le⟩
  by_contra hnot
  obtain ⟨before, c, after, rfl, hsize⟩ := not_isAscii_iff.1 hnot
  have hcut := hall (utf8Len before + 1) (by simp; omega)
  rw [sliceFrom_append_add, sliceFrom_inside Nat.one_pos hsize] at hcut
  cases hcut

end Ail.Lib
