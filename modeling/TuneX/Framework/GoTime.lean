import Mathlib.Data.Int.Order.Basic
import Mathlib.Order.Lattice

namespace TuneX.Framework

/-- Durations are nanoseconds in a signed 64-bit word; instants are nanoseconds
since the zero time, without a monotonic reading. Both are held as integers. -/
def minDuration : Int := -9223372036854775808
def maxDuration : Int := 9223372036854775807

/-- Two's-complement reduction of an exact 64-bit sum or difference. -/
def wrap (n : Int) : Int := (n+9223372036854775808)%18446744073709551616-9223372036854775808

theorem wrap_le (n : Int) (hn : minDuration≤n) : wrap n≤n := by
  unfold minDuration at hn
  unfold wrap
  omega

/-- Difference of two instants, saturated at the ends of the duration range. -/
def instantSub (t u : Int) : Int :=
  if t-u < minDuration then minDuration
  else if maxDuration<t-u then maxDuration
  else t-u

theorem instantSub_pos (t u : Int) (h : 0 < instantSub t u) :
    u<t ∧ instantSub t u≤t-u := by
  unfold instantSub minDuration maxDuration at *
  split_ifs at * <;> omega

end TuneX.Framework
