namespace Runbook.Logs

/-!
# Spans of time in logs

A log is searched between two instants in nanoseconds since 1970.  Whoever asks may
give them in seconds, milliseconds, microseconds or nanoseconds: the size of a number
tells its unit.

Times come as words of 64 bits with a sign, and so do the bounds of the span.  The span
is found on integers first and then on words, where a product stops at the last word and
a difference that is no word is none at all.
-/

/-- The last instant that can be written. -/
def lastInstant : Int := 9223372036854775807

/-- An hour in nanoseconds. -/
def hour : Int := 3600000000000

/-- The longest span that is searched. -/
def longest : Int := 24 * hour

/-- A number of nanoseconds, but no later than the last instant. -/
def bounded (nanos : Int) : Int := min nanos lastInstant

/-- A time in nanoseconds; its size tells in which unit it is given. -/
def nanosOf (time : Int) : Int :=
  if time ≤ 0 then time
  else if time < 100000000000 then bounded (time * 1000000000)
  else if time < 100000000000000 then bounded (time * 1000000)
  else if time < 100000000000000000 then bounded (time * 1000)
  else time

/-- The span between two instants. -/
structure Window where
  start : Int
  finish : Int
  deriving DecidableEq, Repr

namespace Window

/-- A time that is given and positive, in nanoseconds. -/
def given? (time : Option Int) : Option Int :=
  (time.filter fun time => 0 < time).map nanosOf

/-- The span that is asked for: up to the present if there is no end, from an hour
before its end if there is no start, and never longer than the longest. -/
def ofBounds (start finish : Option Int) (present : Int) : Window :=
  let finish := (given? finish).getD present
  let start := (given? start).getD (finish - hour)
  if longest < finish - start then ⟨finish - longest, finish⟩ else ⟨start, finish⟩

end Window

/-! ## On words -/

namespace Word

/-- The first instant that can be written. -/
def firstInstant : Int := -9223372036854775808

/-- The word for an integer that is one. -/
def ofInt? (value : Int) : Option Int64 :=
  if firstInstant ≤ value ∧ value ≤ lastInstant then some (Int64.ofInt value) else none

/-- The difference of two words, if it is a word. -/
def sub? (first second : Int64) : Option Int64 := ofInt? (first.toInt - second.toInt)

/-- The product of two words, or the first or last word if the product is beyond it. -/
def boundedMul (first second : Int64) : Int64 :=
  Int64.ofInt (max firstInstant (min (first.toInt * second.toInt) lastInstant))

/-- A time in nanoseconds; its size tells in which unit it is given. -/
def nanosOf (time : Int64) : Int64 :=
  if time ≤ 0 then time
  else if time < 100000000000 then boundedMul time 1000000000
  else if time < 100000000000000 then boundedMul time 1000000
  else if time < 100000000000000000 then boundedMul time 1000
  else time

/-- A time that is given and positive, in nanoseconds. -/
def given? (time : Option Int64) : Option Int64 :=
  (time.filter fun time => 0 < time).map nanosOf

/-- The start of the span that is asked for, if it is a word. -/
def start? (start : Option Int64) (finish : Int64) : Option Int64 :=
  match given? start with
  | some start => some start
  | none => sub? finish 3600000000000

/-- The start and the end of the span that is asked for, if all differences are words. -/
def bounds? (start finish : Option Int64) (present : Int64) : Option (Int64 × Int64) :=
  let finish := (given? finish).getD present
  (start? start finish).bind fun start =>
    (sub? finish start).bind fun length =>
      if 86400000000000 < length then
        (sub? finish 86400000000000).map fun earliest => (earliest, finish)
      else some (start, finish)

end Word

end Runbook.Logs
