import Mathlib.Data.Option.Basic
import Mathlib.Order.MinMax
import Runbook.Logs.Window

namespace Runbook.Logs

/-!
# Spans of time on words

The span that is found on words is the one that is found on integers: whatever bounds are given,
no difference fails as long as the present is not before 1970.  An instant of our days is
taken for the same whether it is given in seconds or in a smaller unit.
-/

namespace Word

variable {first second : Int64}

theorem toInt_le_lastInstant (word : Int64) : word.toInt ≤ lastInstant :=
  Int.le_of_lt_add_one (Int64.toInt_lt word)

theorem toInt_ofInt
    {value : Int}
    (notBefore : firstInstant ≤ value)
    (notAfter : value ≤ lastInstant) :
    (Int64.ofInt value).toInt = value :=
  Int64.toInt_ofInt_of_le notBefore (Int.lt_add_one_of_le notAfter)

theorem sub?_eq_some
    (first second : Int64)
    (notBefore : firstInstant ≤ first.toInt - second.toInt)
    (notAfter : first.toInt - second.toInt ≤ lastInstant) :
    ∃ difference, sub? first second = some difference ∧
      difference.toInt = first.toInt - second.toInt :=
  ⟨Int64.ofInt (first.toInt - second.toInt), if_pos ⟨notBefore, notAfter⟩,
    toInt_ofInt notBefore notAfter⟩

/-- A product of positive words stops at the last instant. -/
theorem toInt_boundedMul
    (firstPos : 0 < first.toInt)
    (secondPos : 0 < second.toInt) :
    (boundedMul first second).toInt = bounded (first.toInt * second.toInt) := by
  have productPos : 0 < first.toInt * second.toInt := Int.mul_pos firstPos secondPos
  have zeroWithin : firstInstant ≤ 0 ∧ 0 ≤ lastInstant := by
    decide
  rw [boundedMul, toInt_ofInt (by omega) (by omega), bounded]
  omega

/-- On words a time is the same number of nanoseconds. -/
theorem toInt_nanosOf (time : Int64) : (nanosOf time).toInt = Logs.nanosOf time.toInt := by
  have isZero : (0 : Int64).toInt = 0 := rfl
  have inSeconds : (100000000000 : Int64).toInt = 100000000000 := rfl
  have inMillis : (100000000000000 : Int64).toInt = 100000000000000 := rfl
  have inMicros : (100000000000000000 : Int64).toInt = 100000000000000000 := rfl
  have scaled
      (unit : Int64)
      (unitPos : 0 < unit.toInt)
      (positive : ¬ time.toInt ≤ 0) :
      (boundedMul time unit).toInt = bounded (time.toInt * unit.toInt) :=
    toInt_boundedMul (by omega) unitPos
  unfold nanosOf Logs.nanosOf
  simp only [Int64.le_iff_toInt_le, Int64.lt_iff_toInt_lt, isZero, inSeconds, inMillis, inMicros]
  split
  case isTrue =>
    rfl
  case isFalse positive =>
    split
    case isTrue =>
      exact scaled 1000000000 (by decide) positive
    case isFalse =>
      split
      case isTrue =>
        exact scaled 1000000 (by decide) positive
      case isFalse =>
        split
        case isTrue =>
          exact scaled 1000 (by decide) positive
        case isFalse =>
          rfl

theorem map_toInt_given? (time : Option Int64) :
    (given? time).map Int64.toInt = Window.given? (time.map Int64.toInt) := by
  cases time with
  | none =>
      rfl
  | some time =>
      have isPositive : 0 < time ↔ 0 < time.toInt := Int64.lt_iff_toInt_lt
      by_cases positive : 0 < time.toInt
      · simp [given?, Window.given?, Option.filter_some, isPositive, positive, toInt_nanosOf]
      · simp [given?, Window.given?, Option.filter_some, isPositive, positive]

end Word

/-- A positive time is a positive number of nanoseconds. -/
theorem nanosOf_pos
    {time : Int}
    (positive : 0 < time) :
    0 < nanosOf time := by
  unfold nanosOf bounded lastInstant
  omega

namespace Window

/-- A time that is given is positive. -/
theorem pos_of_mem_given?
    {time : Option Int}
    {nanos : Int}
    (isGiven : nanos ∈ given? time) :
    0 < nanos := by
  obtain ⟨value, isValue, rfl⟩ := Option.map_eq_some_iff.mp isGiven
  exact nanosOf_pos (by simpa using (Option.filter_eq_some_iff.mp isValue).2)

end Window

namespace Word

variable {present last : Int64}

/-- Whatever end is given, the span does not end before 1970. -/
theorem nonneg_getD_given?
    (notBefore : 0 ≤ present.toInt)
    (finish : Option Int64) :
    0 ≤ ((given? finish).getD present).toInt := by
  cases isGiven : given? finish with
  | none =>
      exact notBefore
  | some nanos =>
      have isGivenInt : nanos.toInt ∈ Window.given? (finish.map Int64.toInt) := by
        rw [← map_toInt_given?, isGiven]
        rfl
      exact (Window.pos_of_mem_given? isGivenInt).le

/-- The start that is given is after 1970, and there is one an hour before the end. -/
theorem start?_eq_some
    (notBefore : 0 ≤ last.toInt)
    (start : Option Int64) :
    ∃ first, start? start last = some first ∧
      (Window.given? (start.map Int64.toInt)).getD (last.toInt - hour) = first.toInt ∧
      last.toInt - first.toInt ≤ lastInstant := by
  have notLate : last.toInt ≤ lastInstant := toInt_le_lastInstant last
  have isHour : (3600000000000 : Int64).toInt = hour := rfl
  have hourShort : firstInstant ≤ -hour ∧ 0 ≤ hour ∧ hour ≤ lastInstant := by
    decide
  rw [start?, ← map_toInt_given?]
  cases isGiven : given? start with
  | none =>
      obtain ⟨first, isFirst, toInt_first⟩ :=
        sub?_eq_some last 3600000000000 (by omega) (by omega)
      exact ⟨first, isFirst, toInt_first.symm, by omega⟩
  | some first =>
      have isGivenInt : first.toInt ∈ Window.given? (start.map Int64.toInt) := by
        rw [← map_toInt_given?, isGiven]
        rfl
      have firstPos : 0 < first.toInt := Window.pos_of_mem_given? isGivenInt
      exact ⟨first, rfl, rfl, by omega⟩

/-- On words the span is the same as on integers, and no difference fails. -/
theorem bounds?_eq_some
    (notBefore : 0 ≤ present.toInt)
    (start finish : Option Int64) :
    ∃ first last, bounds? start finish present = some (first, last) ∧
      Window.ofBounds (start.map Int64.toInt) (finish.map Int64.toInt) present.toInt =
        ⟨first.toInt, last.toInt⟩ := by
  have lastNonneg := nonneg_getD_given? notBefore finish
  have sameEnd :
      (Window.given? (finish.map Int64.toInt)).getD present.toInt =
        ((given? finish).getD present).toInt := by
    rw [← map_toInt_given?, Option.getD_map]
  rw [bounds?, Window.ofBounds, sameEnd]
  generalize (given? finish).getD present = last at lastNonneg ⊢
  have lastNotLate : last.toInt ≤ lastInstant := toInt_le_lastInstant last
  obtain ⟨first, isStart, sameStart, notFar⟩ := start?_eq_some lastNonneg start
  have firstNotLate : first.toInt ≤ lastInstant := toInt_le_lastInstant first
  have isDay : (86400000000000 : Int64).toInt = longest := rfl
  have dayShort :
      firstInstant ≤ -longest ∧ 0 ≤ longest ∧ firstInstant ≤ -lastInstant := by
    decide
  obtain ⟨length, isLength, toInt_length⟩ :=
    sub?_eq_some last first (by omega) notFar
  obtain ⟨earliest, isEarliest, toInt_earliest⟩ :=
    sub?_eq_some last 86400000000000 (by omega) (by omega)
  have isTooLong : 86400000000000 < length ↔ longest < last.toInt - first.toInt := by
    rw [Int64.lt_iff_toInt_lt, isDay, toInt_length]
  rw [isStart, Option.bind_some, isLength, Option.bind_some, isEarliest, sameStart]
  by_cases tooLong : longest < last.toInt - first.toInt
  · refine ⟨earliest, last, if_pos (isTooLong.mpr tooLong), ?_⟩
    rw [if_pos tooLong, toInt_earliest, isDay]
  · exact ⟨first, last, if_neg (isTooLong.not.mpr tooLong), if_neg tooLong⟩

end Word

namespace Window

variable {start finish : Option Int} {present : Int}

/-- What the span is for bounds that are given or left out: it goes up to its end, and it is as
long as its start asks for, but not longer than the longest. -/
structure IsSpan (start finish : Option Int) (present : Int) (window : Window) : Prop where
  finish_given :
    ∀ time ∈ finish, 0 < time → window.finish = nanosOf time
  finish_present :
    (∀ time ∈ finish, time ≤ 0) → window.finish = present
  start_given :
    ∀ time ∈ start, 0 < time →
      (window.finish - nanosOf time ≤ longest → window.start = nanosOf time) ∧
        (longest < window.finish - nanosOf time → window.start = window.finish - longest)
  start_usual :
    (∀ time ∈ start, time ≤ 0) → window.start = window.finish - hour
  notLonger :
    window.finish - window.start ≤ longest

theorem given?_of_pos
    {time : Option Int}
    {value : Int}
    (isGiven : value ∈ time)
    (positive : 0 < value) :
    given? time = some (nanosOf value) := by
  rw [Option.mem_def.mp isGiven, given?, Option.filter_some, if_pos (by simpa using positive)]
  rfl

theorem given?_of_nonpos
    {time : Option Int}
    (nonpos : ∀ value ∈ time, value ≤ 0) :
    given? time = none := by
  rw [given?, Option.map_eq_none_iff, Option.filter_eq_none_iff]
  intro value isGiven
  simpa using nonpos value isGiven

/-- The span that is searched is the one that the bounds ask for. -/
theorem isSpan_ofBounds
    (start finish : Option Int)
    (present : Int) :
    IsSpan start finish present (ofBounds start finish present) := by
  have hourShort : hour ≤ longest := by
    decide
  have sameFinish :
      (ofBounds start finish present).finish = (given? finish).getD present := by
    rw [ofBounds]
    split <;> rfl
  refine ⟨?_, ?_, ?_, ?_, ?_⟩
  · intro time isGiven positive
    rw [sameFinish, given?_of_pos isGiven positive, Option.getD_some]
  · intro nonpos
    rw [sameFinish, given?_of_nonpos nonpos, Option.getD_none]
  · intro time isGiven positive
    rw [sameFinish, ofBounds, given?_of_pos isGiven positive, Option.getD_some]
    refine ⟨fun short => ?_, fun long => ?_⟩
    · rw [if_neg (not_lt.mpr short)]
    · rw [if_pos long]
  · intro nonpos
    rw [sameFinish, ofBounds, given?_of_nonpos nonpos, Option.getD_none, if_neg (by omega)]
  · rw [ofBounds]
    split <;> dsimp only <;> omega

end Window

section Units

variable {time unit : Int}

/-- The units below the nanosecond's that times are given in, in nanoseconds. -/
def coarseUnits : List Int := [1000, 1000000, 1000000000]

/-- A time of our days in a coarse unit is read in that unit. -/
theorem nanosOf_ediv
    (isUnit : unit ∈ coarseUnits)
    (recent : 100000000000000000 ≤ time)
    (isWord : time ≤ lastInstant) :
    nanosOf (time / unit) = time / unit * unit := by
  have isLast : lastInstant = 9223372036854775807 := rfl
  simp only [coarseUnits, List.mem_cons, List.not_mem_nil, or_false] at isUnit
  unfold nanosOf bounded
  rcases isUnit with rfl | rfl | rfl <;> omega

/-- A time of our days in nanoseconds is read as it is. -/
theorem nanosOf_of_recent
    (recent : 100000000000000000 ≤ time) :
    nanosOf time = time := by
  unfold nanosOf
  omega

/-- A time, rounded down to a multiple of a unit. -/
structure RoundsDown (unit time rounded : Int) : Prop where
  isMultiple :
    unit ∣ rounded
  notAfter :
    rounded ≤ time
  close :
    time < rounded + unit

theorem roundsDown_ediv_mul
    (unitPos : 0 < unit)
    (time : Int) :
    RoundsDown unit time (time / unit * unit) := by
  have isSplit : time / unit * unit + time % unit = time := Int.ediv_mul_add_emod time unit
  have remainderNonneg : 0 ≤ time % unit := Int.emod_nonneg time unitPos.ne'
  have remainderBelow : time % unit < unit := Int.emod_lt_of_pos time unitPos
  exact ⟨Int.dvd_mul_left _ _, by omega, by omega⟩

/-- The ways to write an instant: in nanoseconds, or in a coarse unit that it is a multiple of. -/
inductive Writes (instant : Int) : Int → Prop where
  | nanos :
      Writes instant instant
  | inUnit
      (unit : Int)
      (isUnit : unit ∈ coarseUnits)
      (isMultiple : unit ∣ instant) :
      Writes instant (instant / unit)

/-- The ways to write an instant of our days. -/
structure WritesRecent (instant written : Int) : Prop where
  recent :
    100000000000000000 ≤ instant
  isWord :
    instant ≤ lastInstant
  writes :
    Writes instant written

variable {instant written : Int}

/-- However an instant of our days is written, it is read as the instant. -/
theorem WritesRecent.nanosOf_eq
    (writes : WritesRecent instant written) :
    nanosOf written = instant := by
  obtain ⟨recent, isWord, isWritten⟩ := writes
  cases isWritten with
  | nanos =>
      exact nanosOf_of_recent recent
  | inUnit unit isUnit isMultiple =>
      rw [nanosOf_ediv isUnit recent isWord, Int.ediv_mul_cancel isMultiple]

theorem WritesRecent.pos
    (writes : WritesRecent instant written) :
    0 < written := by
  by_contra nonpos
  have isInstant := writes.nanosOf_eq
  have recent := writes.recent
  rw [nanosOf, if_pos (not_lt.mp nonpos)] at isInstant
  omega

/-- Bounds that are instants of our days, or left out, may be written in any unit. -/
theorem given?_of_writes
    {bound writtenBound : Option Int}
    (writes : Option.Rel WritesRecent bound writtenBound) :
    Window.given? writtenBound = Window.given? bound := by
  cases writes with
  | none =>
      rfl
  | some writes =>
      have same : WritesRecent _ _ := ⟨writes.recent, writes.isWord, .nanos⟩
      rw [Window.given?_of_pos rfl writes.pos, Window.given?_of_pos rfl same.pos,
        writes.nanosOf_eq, same.nanosOf_eq]

end Units

/--
For all bounds that are words and a present not before 1970, every difference is a word and the
span is the one that is asked for.  A time of our days in nanoseconds, divided by a coarse unit,
is read as the time rounded down to a multiple of the unit; so instants mean the same span in
whichever units they are written.
-/
theorem isSpan_bounds? :
    (∀ (start finish : Option Int64) (present : Int64), 0 ≤ present →
      ∃ first last, Word.bounds? start finish present = some (first, last) ∧
        Window.ofBounds (start.map Int64.toInt) (finish.map Int64.toInt) present.toInt =
          ⟨first.toInt, last.toInt⟩ ∧
        Window.IsSpan (start.map Int64.toInt) (finish.map Int64.toInt) present.toInt
          ⟨first.toInt, last.toInt⟩) ∧
      (∀ time, 100000000000000000 ≤ time → time ≤ lastInstant →
        nanosOf time = time ∧
          ∀ unit ∈ coarseUnits, RoundsDown unit time (nanosOf (time / unit))) ∧
      ∀ start finish writtenStart writtenFinish present,
        Option.Rel WritesRecent start writtenStart →
          Option.Rel WritesRecent finish writtenFinish →
            Window.ofBounds writtenStart writtenFinish present =
              Window.ofBounds start finish present := by
  refine ⟨?_, ?_, ?_⟩
  · intro start finish present notBefore
    obtain ⟨first, last, isBounds, isWindow⟩ :=
      Word.bounds?_eq_some (Int64.le_iff_toInt_le.mp notBefore) start finish
    exact ⟨first, last, isBounds, isWindow, isWindow ▸ Window.isSpan_ofBounds _ _ _⟩
  · intro time recent isWord
    refine ⟨nanosOf_of_recent recent, fun unit isUnit => ?_⟩
    have unitPos : ∀ unit ∈ coarseUnits, 0 < unit := by
      decide
    rw [nanosOf_ediv isUnit recent isWord]
    exact roundsDown_ediv_mul (unitPos unit isUnit) time
  · intro start finish writtenStart writtenFinish present writesStart writesFinish
    rw [Window.ofBounds, Window.ofBounds, given?_of_writes writesStart,
      given?_of_writes writesFinish]

/-- The first second of 1970 to the last instant is cut at the last day; the last instant keeps
all but its last digits in every unit; a start in seconds may stand beside an end in
microseconds. -/
theorem isSpan_bounds?_last_day :
    Word.bounds? (some 1) (some Int64.maxValue) 0 =
        some (9223285636854775807, Int64.maxValue) ∧
      Window.IsSpan (some 1) (some lastInstant) 0 ⟨9223285636854775807, lastInstant⟩ ∧
      RoundsDown 1000000000 lastInstant (nanosOf 9223372036) ∧
      Window.ofBounds (some 1700000000) (some 1700003600000000) 0 =
        Window.ofBounds (some 1700000000000000000) (some 1700003600000000000) 0 := by
  obtain ⟨onWords, roundsDown, sameInstant⟩ := isSpan_bounds?
  have isBounds :
      Word.bounds? (some 1) (some Int64.maxValue) 0 =
        some (9223285636854775807, Int64.maxValue) := by
    decide
  obtain ⟨first, last, isSome, -, isSpan⟩ :=
    onWords (some 1) (some Int64.maxValue) 0 (by decide)
  obtain ⟨rfl, rfl⟩ : first = 9223285636854775807 ∧ last = Int64.maxValue := by
    rw [isBounds] at isSome
    simpa [eq_comm] using isSome
  refine ⟨isBounds, isSpan, ?_, ?_⟩
  · exact (roundsDown lastInstant (by decide) (by decide)).2 1000000000 (by decide)
  · refine sameInstant _ _ _ _ 0 (.some ⟨by decide, by decide, ?_⟩)
      (.some ⟨by decide, by decide, ?_⟩)
    · exact .inUnit 1000000000 (by decide) (by decide)
    · exact .inUnit 1000 (by decide) (by decide)

end Runbook.Logs
