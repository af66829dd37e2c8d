import Runbook.Decimal.Shortest

namespace Runbook

/-!
# Durations and instants

Both are counts of nanoseconds.  An instant counts from a fixed origin and has
64 signed bits for its seconds, so the sum of an instant and a duration may lie
beyond the last instant.
-/

/-- A length of time in nanoseconds. -/
abbrev Duration := Nat

/-- A point in time, in nanoseconds since the origin. -/
abbrev Instant := Nat

namespace Duration

/-- Nanoseconds in a second. -/
def perSecond : Nat := 1000000000

/-- Nanoseconds in a millisecond. -/
def perMilli : Nat := 1000000

/-- A number of seconds. -/
def ofSeconds (seconds : Nat) : Duration := seconds * perSecond

/-- A number of milliseconds. -/
def ofMillis (millis : Nat) : Duration := millis * perMilli

/-- The whole seconds of a duration. -/
def wholeSeconds (duration : Duration) : Nat := duration / perSecond

/-- The nanoseconds beyond the whole seconds. -/
def subNanos (duration : Duration) : Nat := duration % perSecond

/-- The duration in whole milliseconds, a part of one counted as one. -/
def millisUp (duration : Duration) : Nat := (duration + (perMilli - 1)) / perMilli

/-- The duration in seconds, as a machine number. -/
def toSeconds (duration : Duration) : Float :=
  Float.ofNat duration.wholeSeconds + Float.ofNat duration.subNanos / 1.0e9

/-- A quotient rounded to the nearest whole number, a half to the even one. -/
def roundEven (numerator denominator : Nat) : Nat :=
  let floor := numerator / denominator
  let rest := numerator % denominator
  if 2 * rest < denominator then floor
  else if denominator < 2 * rest then floor + 1
  else if floor % 2 = 0 then floor
  else floor + 1

/-- The duration of a machine number of seconds, to the nearest nanosecond;
`none` for a negative number, a NaN and what has no 64-bit count of seconds. -/
def ofSeconds? (seconds : Float) : Option Duration :=
  let number := Double.ofFloat seconds
  if !number.isFinite then none
  else if seconds == 0.0 then some 0
  else if number.isNegative then none
  else
    let value := (Decimal.neighbourhood number).value
    let nanos := roundEven (value.numerator * perSecond) value.denominator
    if nanos < Nat.pow 2 64 * perSecond then some nanos else none

/-- Digits without the zeros at their end. -/
def withoutZeros (digits : List Char) : List Char :=
  (digits.reverse.dropWhile (· == '0')).reverse

/-- A quotient by a power of ten in decimal notation. -/
def decimal (value : Nat) (places : Nat) : String :=
  let rest := Nat.toDigits 10 (Nat.pow 10 places + value % Nat.pow 10 places)
  let fraction := withoutZeros (rest.drop 1)
  toString (value / Nat.pow 10 places) ++
    if fraction.isEmpty then "" else "." ++ String.ofList fraction

/-- The duration in words, in the largest unit that it reaches. -/
def written (duration : Duration) : String :=
  if perSecond ≤ duration then decimal duration 9 ++ "s"
  else if perMilli ≤ duration then decimal duration 6 ++ "ms"
  else if 1000 ≤ duration then decimal duration 3 ++ "µs"
  else toString duration ++ "ns"

end Duration

namespace Instant

/-- The first nanosecond that no instant has any more. -/
def bound : Nat := Nat.pow 2 63 * Duration.perSecond

/-- The instant a duration later, if there is one. -/
def after? (instant : Instant) (duration : Duration) : Option Instant :=
  if instant + duration < bound then some (instant + duration) else none

end Instant

end Runbook
