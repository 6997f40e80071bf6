import Ail.Lib.MachineInt

/-!
# Durations between instants

`Instant::duration_since` (`time.rs`) subtracts seconds and nanoseconds
each for itself, and the derived order compares the seconds first.
-/

namespace Ail.Stdlib

open Lib

structure Instant where
  secs : Int64
  nanos : UInt32

/-- The two parts are signed and not normalized. -/
@[ext]
structure StdDuration where
  secs : Int64
  nanos : Int64

namespace StdDuration

variable (x y : StdDuration)

def isNegative : Bool := x.secs < 0 || (x.secs = 0 && x.nanos < 0)

/-- The derived `<`. -/
def less : Bool := x.secs < y.secs || (x.secs = y.secs && x.nanos < y.nanos)

end StdDuration

variable (a b c d : Instant)

def Instant.durationSince : StdDuration :=
  ⟨a.secs - b.secs, .ofNat a.nanos.toNat - .ofNat b.nanos.toNat⟩

/-- The time from `b` to `a` in nanoseconds. -/
def Instant.nanosSince : Int :=
  (a.secs.toInt - b.secs.toInt) * 10 ^ 9 + (a.nanos.toNat - b.nanos.toNat)

/-- From `b` to `a` it is a second more than from `d` to `c`, and at least
a second of nanoseconds less. -/
def Crosses : Prop :=
  a.secs.toInt - b.secs.toInt = c.secs.toInt - d.secs.toInt + 1 ∧
    (a.nanos.toNat - b.nanos.toNat + 10 ^ 9 : Int) ≤ c.nanos.toNat - d.nanos.toNat

/-- The two durations compare like the times they stand for. -/
@[mk_iff]
structure Comparable : Prop where
  less : (a.durationSince b).less (c.durationSince d) ↔ a.nanosSince b < c.nanosSince d
  greater : (c.durationSince d).less (a.durationSince b) ↔ c.nanosSince d < a.nanosSince b
  equal : a.durationSince b = c.durationSince d ↔ a.nanosSince b = c.nanosSince d

variable {a b c d}

/-- Seconds that do not overflow and all nanoseconds are subtracted exactly. -/
theorem toInt_durationSince (hsecs : Fits (a.secs.toInt - b.secs.toInt)) :
    (a.durationSince b).secs.toInt = a.secs.toInt - b.secs.toInt ∧
      (a.durationSince b).nanos.toInt = a.nanos.toNat - b.nanos.toNat := by
  have ha := a.nanos.toNat_lt
  have hb := b.nanos.toNat_lt
  refine ⟨by rw [Instant.durationSince, Int64.toInt_sub, bmod_of_fits hsecs], ?_⟩
  rw [Instant.durationSince, Int64.toInt_sub, Int64.toInt_ofNat_of_lt (by omega),
    Int64.toInt_ofNat_of_lt (by omega), bmod_of_fits ⟨by omega, by omega⟩]

/-- Durations compare like times unless one crosses the other, and their
sign is right. -/
theorem durationSince_compares_iff (hnanos : ∀ i ∈ [a, b, c, d], i.nanos.toNat < 10 ^ 9)
    (hab : Fits (a.secs.toInt - b.secs.toInt)) (hcd : Fits (c.secs.toInt - d.secs.toInt)) :
    (Comparable a b c d ↔ ¬ Crosses a b c d ∧ ¬ Crosses c d a b) ∧
      ((a.durationSince b).isNegative ↔ a.nanosSince b < 0) := by
  simp only [List.forall_mem_cons] at hnanos
  obtain ⟨hs, hn⟩ := toInt_durationSince hab
  obtain ⟨hs', hn'⟩ := toInt_durationSince hcd
  simp only [comparable_iff, StdDuration.less, Crosses, StdDuration.isNegative, StdDuration.ext_iff,
    Instant.nanosSince, ← Int64.toInt_inj, Int64.lt_iff_toInt_lt, hs, hn, hs',
    hn', Int64.toInt_zero, Bool.or_eq_true, Bool.and_eq_true, decide_eq_true_eq]
  omega

theorem seconds_compare : Comparable ⟨3, 0⟩ ⟨1, 0⟩ ⟨2, 5⟩ ⟨1, 7⟩ :=
  (durationSince_compares_iff (by simp) (by decide) (by decide)).1.2
    (by unfold Crosses; decide)

/-- One nanosecond over the start of a second is not below half of one. -/
theorem nanosecond_not_less : ¬ Comparable ⟨1, 0⟩ ⟨0, 999999999⟩ ⟨0, 500000000⟩ ⟨0, 0⟩ :=
  fun h => absurd (h.less.2 (by decide)) (by decide)

end Ail.Stdlib
