import Mathlib.Algebra.Ring.Int.Defs
import Mathlib.Algebra.Ring.Nat
import Mathlib.Data.Int.Order.Basic

/-!
# Instants and durations

Go's `time` package. An instant is its number of nanoseconds since the Unix epoch, a duration a
number of nanoseconds in the range of an `int64`. The difference of two instants saturates there.
-/

namespace Lib.Clock

def second : Int := 1000000000

def minute : Int := 60 * second

def maxDuration : Int := 2 ^ 63 - 1

def minDuration : Int := -2 ^ 63

/-- The result of `int64` arithmetic on durations. -/
def wrap (d : Int) : Int := d.bmod (2 ^ 64)

/-- `Time.Sub` -/
def sub (t u : Int) : Int := max minDuration (min maxDuration (t - u))

/-- `time.Unix` of whole seconds. -/
def ofUnix (s : Int) : Int := s * second

/-- `Time.Unix` -/
def unix (t : Int) : Int := t / second

/-- The zero `Time`: the first instant of the year 1. -/
def zero : Int := ofUnix (-62135596800)

variable {t u d : Int}

theorem sub_le_iff (h₀ : minDuration ≤ d) (h₁ : d < maxDuration) : sub t u ≤ d ↔ t - u ≤ d := by
  unfold sub
  omega

theorem le_sub_iff (h₀ : minDuration < d) (h₁ : d ≤ maxDuration) : d ≤ sub t u ↔ d ≤ t - u := by
  unfold sub
  omega

theorem wrap_eq (h₀ : minDuration ≤ d) (h₁ : d ≤ maxDuration) : wrap d = d := by
  unfold wrap
  unfold minDuration at h₀
  unfold maxDuration at h₁
  exact Int.bmod_eq_of_le (by omega) (by omega)

theorem unix_mono (h : t ≤ u) : unix t ≤ unix u := Int.ediv_le_ediv (by decide) h

end Lib.Clock
