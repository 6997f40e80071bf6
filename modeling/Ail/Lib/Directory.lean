import Mathlib.Data.List.Basic

/-!
# A directory of small files

Files by name, the most recently written first. A file is written
atomically the usual way: the content goes to a temporary sibling that
is then renamed over the target. The sibling's name is derived from the
target's, so a file that happens to have that name is lost on the way.
-/

namespace Ail.Lib

open List

universe u

/-- The part of a file name before its last dot; a name whose only dot
leads it is all stem. -/
def fileStem (name : List Char) : List Char :=
  match name.reverse.dropWhile (· ≠ '.') with
  | [] => name
  | [_] => name
  | _ :: before => before.reverse

/-- The sibling an atomic write goes through: the extension replaced by
`tmp`. -/
def temporaryName (name : String) : String :=
  String.ofList (fileStem name.toList ++ ['.', 't', 'm', 'p'])

/-- Files with their contents, each name at most once. -/
abbrev Directory (α : Type u) : Type u := List (String × α)

namespace Directory

variable {α : Type u}

def empty : Directory α := []

variable (dir : Directory α)

def read (name : String) : Option α :=
  (dir.find? (·.1 = name)).map (·.2)

/-- Write the temporary sibling, then rename it to `name`. -/
def atomicWrite (name : String) (content : α) : Directory α :=
  (name, content) :: dir.filter fun file => file.1 ≠ name ∧ file.1 ≠ temporaryName name

@[simp] theorem read_empty (name : String) : (empty : Directory α).read name = none := rfl

@[simp] theorem read_atomicWrite_self (name : String) (content : α) :
    (dir.atomicWrite name content).read name = some content := by
  simp [read, atomicWrite]

theorem read_atomicWrite_of_ne {name other : String} (content : α) (hne : other ≠ name)
    (htmp : other ≠ temporaryName name) :
    (dir.atomicWrite name content).read other = dir.read other := by
  have hkeep :
    (fun file : String × α => decide (decide (file.1 ≠ name ∧ file.1 ≠ temporaryName name) ∧
      decide (file.1 = other))) = fun file => decide (file.1 = other) := by
    funext file
    by_cases heq : file.1 = other
    · simp [heq, hne, htmp]
    · simp [heq]
  rw [read, atomicWrite, find?_cons_of_neg (by simpa using hne.symm), find?_filter, hkeep]
  rfl

/-- The temporary sibling does not survive the write. -/
theorem read_atomicWrite_temporaryName {name : String} (content : α)
    (hne : temporaryName name ≠ name) :
    (dir.atomicWrite name content).read (temporaryName name) = none := by
  simp only [read, atomicWrite, Option.map_eq_none_iff, find?_eq_none, mem_cons]
  rintro file (rfl | hmem)
  · simpa using hne.symm
  · simpa using (mem_filter.1 hmem).2 |> of_decide_eq_true |>.2

end Directory

end Ail.Lib
