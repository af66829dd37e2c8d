import Runbook.Proofs.Chunks.Exchange

namespace Runbook

/-!
# Chunks come to their end

Each move takes away from the work that remains of the chunks, and as long as they are not
over there is something to do.  At their end every call is settled in its place.
-/

/-- The work that remains of a chunk that is under way, with that of closing it. -/
def Leg.remaining (attempts : Nat) : Leg → Nat
  | .under course => course.remaining attempts + 1
  | .between => 0
  | .brokeDown => 0

namespace Relay

variable {policy : RetryPolicy} {config : BatchConfig} {latest : Instant}
  {chunks : List (List Call)} {relay next : Relay} {course : Course}

/-- The work that remains of a chunk that has not begun, with that of beginning and closing
it. -/
def remainingOf (attempts : Nat) (config : BatchConfig) (chunk : List Call) : Nat :=
  (Course.ofChunk config chunk).remaining attempts + 2

/-- The work that remains of all chunks, and the ends of the context above. -/
def remaining (attempts : Nat) (config : BatchConfig) (relay : Relay) : Nat :=
  (relay.coming.map (remainingOf attempts config)).sum + relay.leg.remaining attempts +
    ContextEnds.remaining relay.ended

/-- Where batches can be begun, a move takes away from the work that remains. -/
theorem remaining_lt_of_moves
    (admits : config.Admits latest)
    (sound : Sound policy config chunks relay)
    (moves : Moves policy config latest relay next) :
    next.remaining policy.attempts config < relay.remaining policy.attempts config := by
  have lessUnder :
      ∀ {course going : Course}, relay.leg = .under course →
        Course.Moves policy course going →
        going.remaining policy.attempts < course.remaining policy.attempts :=
    fun isUnder courseMoves =>
      Course.remaining_lt_of_moves courseMoves
        (Course.carries_ofChunk (sound.alone_of_under isUnder)).permitted
  cases moves with
  | chunkEnds isUnder ends =>
      have less := lessUnder isUnder (.outside ends)
      simp only [remaining, isUnder, Leg.remaining]
      omega
  | @ends fault ends =>
      have less := ends.remaining_lt
      obtain ⟨course, isUnder, isEnded⟩ | ⟨_, isEnded⟩ := relay.endAbove_cases fault
      · have notMore :
            (course.under fault).remaining policy.attempts ≤
              course.remaining policy.attempts := by
          rcases course.under_moves policy ends.endsContext with moves | isSame
          · exact (lessUnder isUnder moves).le
          · rw [isSame]
        rw [isEnded]
        simp only [remaining, isUnder, Leg.remaining]
        omega
      · rw [isEnded]
        exact Nat.add_lt_add_left less _
  | step step =>
      cases step with
      | run isUnder courseStep =>
          have less := lessUnder isUnder (.step courseStep)
          simp only [remaining, isUnder, Leg.remaining]
          omega
      | close isUnder isOver =>
          simp only [remaining, isUnder, Leg.remaining]
          omega
      | begin isBetween isComing isLive isBefore _ =>
          simp only [remaining, isBetween, isComing, Leg.remaining, remainingOf, List.map_cons,
            List.sum_cons]
          omega
      | breakDown isBetween isComing isLive isBefore notAdmits =>
          exact (notAdmits (admits.of_le isBefore)).elim
      | leave isBetween isComing hasEnded =>
          obtain ⟨chunk, rest, isChunks⟩ := List.exists_cons_of_ne_nil isComing
          simp only [remaining, isChunks, remainingOf, List.map_cons, List.map_nil,
            List.sum_cons, List.sum_nil]
          omega

/-- As long as chunks are not over, there is something to do. -/
theorem exists_step
    (admits : config.Admits latest)
    (sound : Sound policy config chunks relay)
    (works : relay.leg ≠ .brokeDown)
    (notOver : ¬ relay.IsOver) :
    ∃ next, Step policy config latest relay next := by
  cases leg : relay.leg with
  | brokeDown =>
      exact (works leg).elim
  | under course =>
      by_cases isOver : course.IsOver
      · exact ⟨_, .close leg isOver⟩
      · have permitted := (Course.carries_ofChunk (sound.alone_of_under leg)).permitted
        obtain ⟨going, courseStep⟩ :=
          Course.exists_step policy permitted (Nat.le_max_right _ 1) isOver
        exact ⟨_, .run leg courseStep⟩
  | between =>
      cases coming : relay.coming with
      | nil =>
          exact (notOver ⟨leg, coming⟩).elim
      | cons chunk rest =>
          cases ended : relay.ended with
          | none =>
              exact ⟨_, .begin leg coming ended (Nat.le_refl latest) admits⟩
          | some fault =>
              exact ⟨_, .leave leg (by rw [coming]; exact List.cons_ne_nil _ _) ended⟩

/-- Where batches can be begun, the machinery does not break down. -/
theorem works_of_moves
    (admits : config.Admits latest)
    (works : relay.leg ≠ .brokeDown)
    (moves : Moves policy config latest relay next) :
    next.leg ≠ .brokeDown := by
  cases moves with
  | chunkEnds isUnder ends =>
      nofun
  | @ends fault ends =>
      obtain ⟨course, _, isEnded⟩ | ⟨_, isEnded⟩ := relay.endAbove_cases fault
      · rw [isEnded]
        nofun
      · rw [isEnded]
        exact works
  | step step =>
      cases step with
      | breakDown isBetween isComing isLive isBefore notAdmits =>
          exact (notAdmits (admits.of_le isBefore)).elim
      | leave isBetween isComing hasEnded =>
          exact works
      | _ =>
          nofun

/-- However things go, chunks come to their end. -/
theorem concludes
    (admits : config.Admits latest)
    (sound : Sound policy config chunks relay)
    (works : relay.leg ≠ .brokeDown) :
    relay.Concludes policy config latest := by
  -- The induction is on the work that remains, which every move takes away from.
  generalize work : relay.remaining policy.attempts config = amount
  induction amount using Nat.strong_induction_on generalizing relay with
  | _ amount inductionHypothesis =>
      by_cases isOver : relay.IsOver
      · exact .ended isOver
      · obtain ⟨next, step⟩ := exists_step admits sound works isOver
        refine .goesOn step fun later moves => ?_
        have less := remaining_lt_of_moves admits sound moves
        rw [work] at less
        exact inductionHypothesis _ less (sound.of_moves moves)
          (works_of_moves admits works moves) rfl

/-- A call that is settled is done. -/
theorem isDone_settle
    (call : Call)
    (outcome : Except Fault String) :
    (call.settle outcome).isDone = true := by
  unfold Call.settle
  split
  · rename_i isSettled
    rw [Call.isDone, isSettled]
    rfl
  · rfl

theorem isDone_of_settled
    {calls results : List Call}
    (settled :
      List.Forall₂ (fun call result => ∃ outcome, result = call.settle outcome) calls results) :
    ∀ result ∈ results, result.isDone = true := by
  intro result isResult
  obtain ⟨index, isLess, rfl⟩ := List.mem_iff_getElem.mp isResult
  obtain ⟨outcome, isSettled⟩ :=
    settled.get (settled.length_eq ▸ isLess) isLess
  simp only [List.get_eq_getElem] at isSettled
  rw [isSettled]
  exact isDone_settle _ outcome

/-- When chunks are over, each of their calls is settled in its place. -/
theorem settled_of_isOver
    (sound : Sound policy config chunks relay)
    (isOver : relay.IsOver) :
    List.Forall₂ (fun call result => ∃ outcome, result = call.settle outcome) chunks.flatten
      relay.results := by
  have divided := sound.divided
  have alone := sound.alone
  rw [courses_of_between isOver.1] at divided alone
  rw [isOver.2, List.append_nil] at divided
  cases left : relay.left with
  | none =>
      -- Nothing was left, for whatever reason there might have been.
      have settled := Course.settled_of_chunks alone [] .cancelled
      rw [← divided]
      simpa only [leftOver, results, left, List.append_nil, List.flatten_nil, List.map_nil]
        using settled
  | some rest =>
      obtain ⟨reason, chunks⟩ := rest
      rw [← divided]
      simpa only [leftOver, results, left] using Course.settled_of_chunks alone chunks reason

/-- A chunk that has begun finds those before it over. -/
theorem inTurn_of_sound
    (sound : Sound policy config chunks relay)
    {place earlier : Nat}
    (isLate : place < relay.courses.length)
    (isEarlier : earlier < place) :
    ∃ early, relay.courses[earlier]? = some early ∧ early.IsOver ∧
      ∀ result ∈ early.results, result.isDone = true := by
  have inPast : earlier < relay.past.length := by
    unfold courses at isLate
    rw [List.length_append] at isLate
    split at isLate
    · rw [List.length_singleton] at isLate
      omega
    · rw [List.length_nil] at isLate
      omega
  have isPast : relay.past[earlier] ∈ relay.past :=
    List.getElem_mem inPast
  have hasBegun : relay.past[earlier] ∈ relay.courses :=
    List.mem_append_left _ isPast
  refine ⟨relay.past[earlier], ?_, sound.pastOver _ isPast,
    isDone_of_settled (Course.results_settled (sound.alone _ hasBegun))⟩
  unfold courses
  rw [List.getElem?_append_left inPast]
  exact List.getElem?_eq_getElem inPast

/-- Only the chunk under way invokes calls. -/
theorem inside_of_sound
    (sound : Sound policy config chunks relay) :
    relay.inside = 0 ∨
      ∃ course, relay.leg = .under course ∧
        relay.inside = (Conduct.together course).inside := by
  have noneInside :
      (relay.past.map fun course => (Conduct.together course).inside).sum = 0 := by
    refine List.sum_eq_zero fun count isCount => ?_
    obtain ⟨course, isPast, rfl⟩ := List.mem_map.mp isCount
    exact Course.inside_eq_zero_of_isOver (sound.pastOver course isPast)
  unfold inside courses
  rw [List.map_append, List.sum_append, noneInside, Nat.zero_add]
  split
  · rename_i isUnder
    exact Or.inr ⟨_, isUnder, List.sum_singleton⟩
  · exact Or.inl rfl

/-- No more calls are being invoked than a chunk has, and than may run at once. -/
theorem inside_le_of_sound
    {calls : List Call}
    {size : Nat}
    (sound :
      Sound policy config (Execution.chunks (Execution.chunkSize config size) calls) relay) :
    relay.inside ≤ min (Execution.chunkSize config size) (max config.maxConcurrency 1) := by
  rcases inside_of_sound sound with isNone | ⟨course, isUnder, isInside⟩
  · rw [isNone]
    exact Nat.zero_le _
  · have isChunk :
        course.calls ∈ Execution.chunks (Execution.chunkSize config size) calls := by
      rw [← sound.divided, courses_of_under isUnder]
      simp
    have bounded := Execution.length_of_mem_chunks (Execution.chunkSize_pos config size) isChunk
    rw [isInside]
    exact (Course.inside_le_of_chunk (sound.alone_of_under isUnder)).trans
      (min_le_min_right _ bounded.2)

/-- What holds of calls that are carried out in chunks, whatever happens. -/
structure Orderly (policy : RetryPolicy) (config : BatchConfig) (latest : Instant)
    (calls : List Call) (size : Nat) (relay : Relay) : Prop where
  /-- The machinery does not break down. -/
  works :
    relay.leg ≠ .brokeDown
  /-- What has begun, what was left and what has still to come are the chunks in their
  order. -/
  divided :
    relay.courses.map Course.calls ++ (relay.leftOver ++ relay.coming) =
      Execution.chunks (Execution.chunkSize config size) calls
  /-- When a chunk has begun, those before it are over and all their calls are done. -/
  inTurn : ∀ place earlier,
    place < relay.courses.length →
      earlier < place →
        ∃ early, relay.courses[earlier]? = some early ∧ early.IsOver ∧
          ∀ result ∈ early.results, result.isDone = true
  inside :
    relay.inside ≤ min (Execution.chunkSize config size) (max config.maxConcurrency 1)
  /-- Each chunk goes as it may by itself, under a context that goes on when it begins. -/
  alone : ∀ course ∈ relay.courses,
    Course.Reaches policy (.ofChunk config course.calls) course
  /-- If a chunk that is over had gone otherwise, everything else could be as it is. -/
  exchanges : ∀ earlier course after other,
    relay.past = earlier ++ course :: after →
      Course.Reaches policy (.ofChunk config course.calls) other →
        other.IsOver →
          Reaches policy config latest (start config calls size)
            { relay with past := earlier ++ other :: after }
  /-- Once the context above has ended between two chunks, no chunk begins any more, and the
  calls of those that had not begun are settled with the reason. -/
  cutOff : ∀ fault later,
    relay.leg = .between →
      relay.ended = some fault →
        Reaches policy config latest relay later →
          later.courses = relay.courses ∧
            (later.IsOver →
              ∃ reason, ContextGoes (some fault) (some reason) ∧
                later.results =
                  relay.results ++
                    relay.coming.flatten.map fun call => call.settle (.error reason))
  /-- At the end each call is settled in its place. -/
  answered :
    relay.IsOver →
      List.Forall₂ (fun call result => ∃ outcome, result = call.settle outcome) calls
          relay.results ∧
        ∀ result ∈ relay.results, result.isDone = true

/-- Where batches can be begun, calls in chunks come to their end, however things go, and
whatever has happened they are carried out in the order of the chunks. -/
theorem orderly_of_admits
    (policy : RetryPolicy)
    (admits : config.Admits latest)
    (calls : List Call)
    (size : Nat) :
    (start config calls size).Concludes policy config latest ∧
      ∀ relay, Reaches policy config latest (start config calls size) relay →
        relay.Orderly policy config latest calls size := by
  have first := Sound.start policy config calls size
  have isIdle : ∀ course, (start config calls size).leg ≠ .under course :=
    fun _ isUnder => by cases isUnder
  have worksAtFirst : (start config calls size).leg ≠ .brokeDown :=
    nofun
  refine ⟨concludes admits first worksAtFirst, fun relay reaches => ?_⟩
  have sound := first.of_reaches reaches
  refine {
    works := ?_
    divided := sound.divided
    inTurn := fun place earlier => inTurn_of_sound sound
    inside := inside_le_of_sound sound
    alone := sound.alone
    exchanges := fun earlier course after other isPast goes isOver =>
      exchanges_of_reaches first isIdle rfl reaches goes isOver earlier after isPast
    cutOff := fun fault later isBetween hasEnded goesOn => ?_
    answered := fun isOver => ?_ }
  · induction reaches with
    | refl =>
        exact worksAtFirst
    | tail reaches moves inductionHypothesis =>
        exact works_of_moves admits (inductionHypothesis (first.of_reaches reaches)) moves
  · have cutOff := CutOff.of_reaches sound isBetween hasEnded goesOn
    refine ⟨?_, cutOff.results⟩
    rw [courses_of_between isBetween, courses_of_between cutOff.isBetween, cutOff.samePast]
  · have settled := settled_of_isOver sound isOver
    rw [Execution.flatten_chunks] at settled
    exact ⟨settled, isDone_of_settled settled⟩

/-- Under a context that is cancelled before the first chunk, every call gets the fault. -/
theorem orderly_of_admits_cancelled :
    let calls : List Call := [.ofTool "q" .null, .ofTool "r" .null]
    ∃ relay,
      Reaches {} {} 0 (start {} calls 1) relay ∧ relay.IsOver ∧
        relay.results = calls.map (fun call => call.settle (.error .cancelled)) ∧
          relay.Orderly {} {} 0 calls 1 := by
  intro calls
  have admits : BatchConfig.Admits {} 0 := ⟨by decide, by decide⟩
  have cancelled :
      Reaches {} {} 0 (start {} calls 1) ((start {} calls 1).endAbove .cancelled) :=
    .single (.ends (.first rfl))
  have isComing :
      ((start {} calls 1).endAbove .cancelled).coming =
        [[.ofTool "q" .null], [.ofTool "r" .null]] := by
    simp [start, endAbove, calls, Execution.chunks, Execution.chunkSize]
  have someComing : ((start {} calls 1).endAbove .cancelled).coming ≠ [] := by
    rw [isComing]
    exact List.cons_ne_nil _ _
  have left := cancelled.tail (.step (.leave rfl someComing rfl))
  refine ⟨_, left, ⟨rfl, rfl⟩, ?_, (orderly_of_admits {} admits calls 1).2 _ left⟩
  simp only [results, isComing]
  rfl

end Relay

end Runbook
