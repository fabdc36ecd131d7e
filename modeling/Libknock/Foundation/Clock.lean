import Libknock.Foundation.Bytes

/-!
# Instants and durations

Instants are nanoseconds since the Unix epoch, unbounded.  Durations are
signed 64-bit nanosecond counts with machine arithmetic; the difference of two
instants saturates at the ends of that range.
-/

set_option autoImplicit false

namespace Libknock.Foundation

abbrev Duration := Int64

/-- 1 January of the year 1, the zero value of an instant. -/
def zeroTime : Int := -62135596800000000000

def second : Duration := 1000000000

def isZero (instant : Int) : Bool := instant = zeroTime

def addDuration (instant : Int) (span : Duration) : Int := instant + span.toInt

def saturate (span : Int) : Duration :=
  if span < -2 ^ 63 then Int64.minValue
  else if 2 ^ 63 ≤ span then Int64.maxValue
  else Int64.ofInt span

/-- `now.Sub(instant)`. -/
def since (now instant : Int) : Duration := saturate (now - instant)

def unixMilli (millis : Int64) : Int := millis.toInt * 1000000

def toUnixMilli (instant : Int) : Int64 := Int64.ofInt (instant / 1000000)

theorem saturate_toInt (span : Int) :
    (saturate span).toInt = max (-2 ^ 63) (min span (2 ^ 63 - 1)) := by
  unfold saturate
  split
  · rename_i low
    have : Int64.minValue.toInt = -2 ^ 63 := by decide
    rw [this]
    omega
  · split
    · have : Int64.maxValue.toInt = 2 ^ 63 - 1 := by decide
      rw [this]
      omega
    · rename_i low high
      rw [Int64.toInt_ofInt_of_le (by omega) (by omega)]
      omega

theorem since_mono {earlier later : Int} (instant : Int) (ordered : earlier ≤ later) :
    since earlier instant ≤ since later instant := by
  rw [Int64.le_iff_toInt_le, since, since, saturate_toInt, saturate_toInt]
  omega

theorem since_self (now : Int) : since now now = 0 := by
  simp [since, saturate]

theorem since_le_iff (now instant : Int) (span : Duration) (room : span.toInt < 2 ^ 63 - 1) :
    since now instant ≤ span ↔ now - instant ≤ span.toInt := by
  have low := Int64.le_toInt span
  rw [Int64.le_iff_toInt_le, since, saturate_toInt]
  omega

theorem neg_le_since_iff (now instant : Int) (span : Duration) (positive : 0 < span.toInt) :
    -span ≤ since now instant ↔ instant - now ≤ span.toInt := by
  have high := Int64.toInt_lt span
  have negated : (-span).toInt = -span.toInt := by
    rw [Int64.toInt_neg]
    exact Int.bmod_eq_of_le (by omega) (by omega)
  rw [Int64.le_iff_toInt_le, since, saturate_toInt, negated]
  omega

/-- A span of less than 292 years after the epoch cannot end at the zero
instant. -/
theorem addDuration_not_zero (instant : Int) (span : Duration) (modern : 0 ≤ instant) :
    isZero (addDuration instant span) = false := by
  have low := Int64.le_toInt span
  refine decide_eq_false ?_
  unfold addDuration zeroTime
  omega

end Libknock.Foundation
