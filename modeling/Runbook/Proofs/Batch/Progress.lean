import Runbook.Proofs.Batch.Conduct

namespace Runbook

/-!
# Batches come to an end

Unless a batch is over, its collector or one of its tasks can do something.  Whatever is
done takes away from the work that remains: a task comes nearer to being collected, joins
the line, or the context ends once more.  So a batch comes to an end, however its tasks
take turns and whenever its context ends.
-/

namespace Stage

/-- The work that remains of an invocation: two for each attempt that may still come. -/
def remaining (attempts : Nat) : Stage String → Nat
  | attempting attempt => 2 * (attempts + 1 - attempt) + 1
  | resting attempt => 2 * (attempts + 1 - attempt) + 2
  | ended _ => 0

theorem remaining_enter_lt
    (attempts attempt : Nat)
    (ended : Option Fault) :
    (Stage.enter attempt ended : Stage String).remaining attempts <
      (Stage.resting attempt : Stage String).remaining attempts := by
  cases ended with
  | none =>
      simp [enter, remaining]
  | some fault =>
      simp [enter, remaining]

theorem remaining_reported
    (attempts : Nat)
    (breaksDown : Bool)
    (stage : Stage String) :
    (stage.reported breaksDown).remaining attempts = stage.remaining attempts := by
  cases stage <;> rfl

/-- What follows an attempt is less than the attempt. -/
theorem remaining_afterAttempt_lt
    (policy : RetryPolicy)
    (attempt : Nat)
    (ending : Ending String) :
    (Stage.afterAttempt policy attempt ending).remaining policy.attempts <
      (Stage.attempting attempt : Stage String).remaining policy.attempts := by
  match ending with
  | .brokeDown =>
      simp [afterAttempt, remaining]
  | .finished (.ok value) =>
      simp [afterAttempt, remaining]
  | .finished (.error fault) =>
      simp only [afterAttempt]
      split
      · simp [remaining]
      · split
        · simp only [remaining]
          omega
        · split
          · simp [remaining]
          · simp [remaining]

/-- An invocation that goes on has less before it. -/
theorem Proceeds.remaining_lt
    {policy : RetryPolicy}
    {name : String}
    {ended : Option Fault}
    {stage later : Stage String}
    (proceeds : Proceeds policy name ended stage later) :
    later.remaining policy.attempts < stage.remaining policy.attempts := by
  cases proceeds with
  | attempted breaksDown _ =>
      rw [remaining_reported]
      exact remaining_afterAttempt_lt policy _ _
  | rested =>
      exact remaining_enter_lt _ _ _

/-- The work of an invocation that opens. -/
theorem Opens.remaining_le
    {name : String}
    {ended : Option Fault}
    {stage : Stage String}
    (opens : Opens name ended stage)
    (attempts : Nat) :
    stage.remaining attempts ≤ 2 * attempts + 1 := by
  cases opens with
  | notFound =>
      simp [remaining]
  | turnedAway =>
      simp [remaining]
  | admitted =>
      cases ended with
      | none =>
          simp [enter, remaining]
      | some fault =>
          simp [enter, remaining]

/-- An invocation that is not over can go on. -/
theorem exists_proceeds
    (policy : RetryPolicy)
    (name : String)
    (ended : Option Fault)
    {stage : Stage String}
    (goesOn : ∀ ending, stage ≠ .ended ending) :
    ∃ later, Proceeds policy name ended stage later := by
  cases stage with
  | attempting attempt =>
      cases ended with
      | none =>
          have fits : AttemptOutcome.timedOut.Fits none := rfl
          exact ⟨_, .attempted false fits⟩
      | some fault =>
          have fits : (AttemptOutcome.interrupted fault).Fits (some fault) := rfl
          exact ⟨_, .attempted false fits⟩
  | resting attempt =>
      exact ⟨_, .rested⟩
  | ended ending =>
      exact (goesOn ending rfl).elim

end Stage

namespace TaskPlace

/-- The work that remains of a task at a place. -/
def remaining (attempts : Nat) : TaskPlace → Nat
  | held => 2 * attempts + 7
  | queued => 2 * attempts + 6
  | granted => 2 * attempts + 4
  | running stage => stage.remaining attempts + 2
  | returned _ _ => 1
  | collected _ => 0

end TaskPlace

namespace ContextEnds

/-- How often a context may still end. -/
def remaining : Option Fault → Nat
  | none => 2
  | some .deadlineExceeded => 1
  | some _ => 0

theorem remaining_lt
    {ended : Option Fault}
    {fault : Fault}
    (ends : ContextEnds ended fault) :
    remaining (some fault) < remaining ended := by
  cases ends with
  | first endsContext =>
      cases fault <;> simp_all [Fault.endsContext, remaining]
  | overtaken =>
      simp [remaining]

end ContextEnds

namespace Batch

variable {limit : Nat} {batch : Batch}

/-- The work that remains of a batch: that of its tasks, and that of joining the line. -/
def remaining (attempts : Nat) (batch : Batch) : Nat :=
  batch.total (fun task => task.place.remaining attempts) +
    (batch.tasks.length - batch.line.length)

theorem remaining_move
    (attempts : Nat)
    {index : Nat}
    {task : BatchTask}
    (found : batch.tasks[index]? = some task)
    (place : TaskPlace) :
    (batch.move index place).remaining attempts + task.place.remaining attempts =
      batch.remaining attempts + place.remaining attempts := by
  have exchanged :
      (batch.move index place).total (fun task => task.place.remaining attempts) +
          task.place.remaining attempts =
        batch.total (fun task => task.place.remaining attempts) +
          place.remaining attempts :=
    total_move (fun task => task.place.remaining attempts) found place
  simp only [remaining, length_tasks_move, line_move]
  omega

theorem remaining_dispatch_le
    (attempts : Nat)
    (batch : Batch)
    (ended : Option Fault) :
    (batch.dispatch ended).remaining attempts ≤ batch.remaining attempts := by
  obtain ⟨sameLength, _, _, _, _, sameLine, _⟩ := dispatch_frame batch ended
  have lighter :=
    total_dispatch_le batch ended (fun task => task.place.remaining attempts)
      fun task held => by simp [held, TaskPlace.remaining]
  simp only [remaining, sameLength, sameLine]
  omega

/-- Giving a permit back adds no work: a task that leaves the line comes nearer to its
end by more than the line gets shorter. -/
theorem remaining_release_le
    (attempts : Nat)
    (waits : ∀ index ∈ batch.line,
      ∃ task, batch.tasks[index]? = some task ∧ task.place = .queued) :
    batch.release.remaining attempts ≤ batch.remaining attempts := by
  cases waiting : batch.line with
  | nil =>
      rw [release_of_empty waiting]
      exact Nat.le_refl _
  | cons next rest =>
      obtain ⟨task, found, queued⟩ := waits next (by simp [waiting])
      have foundSo : ({ batch with line := rest } : Batch).tasks[next]? = some task :=
        found
      have exchanged := remaining_move attempts foundSo .granted
      have longer :
          ({ batch with line := rest } : Batch).remaining attempts ≤
            batch.remaining attempts + 1 := by
        simp only [remaining, waiting, List.length_cons]
        have sameTotal :
            Batch.total (fun task => task.place.remaining attempts)
                { batch with line := rest } =
              batch.total fun task => task.place.remaining attempts :=
          rfl
        rw [sameTotal]
        omega
      have before : task.place.remaining attempts = 2 * attempts + 6 := by
        simp [queued, TaskPlace.remaining]
      have after : TaskPlace.granted.remaining attempts = 2 * attempts + 4 :=
        rfl
      rw [release_of_cons waiting]
      omega

/-- The line has no more places than there are tasks, and one less if a task waits
outside. -/
theorem Permitted.length_line_lt
    (permitted : batch.Permitted limit)
    {index : Nat}
    {task : BatchTask}
    (found : batch.tasks[index]? = some task)
    (outside : index ∉ batch.line) :
    batch.line.length < batch.tasks.length := by
  have inside : index :: batch.line ⊆ List.range batch.tasks.length := by
    intro other member
    rw [List.mem_range]
    rcases List.mem_cons.mp member with isIndex | inLine
    · rw [isIndex]
      exact (List.getElem?_eq_some_iff.mp found).1
    · obtain ⟨waiting, waitingFound, _⟩ := permitted.lineQueued other inLine
      exact (List.getElem?_eq_some_iff.mp waitingFound).1
  have distinct : (index :: batch.line).Nodup :=
    List.nodup_cons.mpr ⟨outside, permitted.lineNodup⟩
  have shorter := (List.subperm_of_subset distinct inside).length_le
  rw [List.length_cons, List.length_range] at shorter
  omega

theorem remaining_collect_lt
    (attempts : Nat)
    {index : Nat}
    {task : BatchTask}
    {call : Call}
    {began : Bool}
    (found : batch.tasks[index]? = some task)
    (returned : task.place = .returned call began) :
    (batch.collect index).remaining attempts < batch.remaining attempts := by
  have lowered :
      ({ batch with tally := batch.tally.lower call.id } : Batch).tasks[index]? =
        some task :=
    found
  have exchanged :=
    remaining_move attempts lowered
      (.collected (keep batch.trippedBy task.call call began))
  have same :
      ({ batch with tally := batch.tally.lower call.id } : Batch).remaining attempts =
        batch.remaining attempts :=
    rfl
  have before : task.place.remaining attempts = 1 := by
    simp [returned, TaskPlace.remaining]
  have after :
      (TaskPlace.collected
        (keep batch.trippedBy task.call call began)).remaining attempts = 0 :=
    rfl
  rw [collect_of_returned found returned]
  omega

/-- Asking for a permit takes away from the work: the task is granted one or joins the
line. -/
theorem remaining_request_lt
    (attempts : Nat)
    (permitted : batch.Permitted limit)
    {index : Nat}
    {task : BatchTask}
    (found : batch.tasks[index]? = some task)
    (queued : task.place = .queued)
    (outside : index ∉ batch.line) :
    (batch.request index).remaining attempts < batch.remaining attempts := by
  by_cases free : 0 < batch.permits
  · have fewer :
        ({ batch with permits := batch.permits - 1 } : Batch).tasks[index]? =
          some task :=
      found
    have exchanged := remaining_move attempts fewer .granted
    have same :
        ({ batch with permits := batch.permits - 1 } : Batch).remaining attempts =
          batch.remaining attempts :=
      rfl
    have before : task.place.remaining attempts = 2 * attempts + 6 := by
      simp [queued, TaskPlace.remaining]
    have after : TaskPlace.granted.remaining attempts = 2 * attempts + 4 :=
      rfl
    rw [request_of_free free]
    omega
  · have shorter := permitted.length_line_lt found outside
    rw [request_of_full (Nat.eq_zero_of_not_pos free)]
    have sameTotal :
        Batch.total (fun task => task.place.remaining attempts)
            { batch with line := batch.line ++ [index] } =
          batch.total fun task => task.place.remaining attempts :=
      rfl
    simp only [remaining, List.length_append, List.length_singleton, sameTotal]
    omega

/-- Returning and passing a permit on takes away from the work. -/
theorem remaining_passOn_lt
    (attempts : Nat)
    (permitted : batch.Permitted limit)
    {index : Nat}
    {task : BatchTask}
    (found : batch.tasks[index]? = some task)
    (notQueued : task.place ≠ .queued)
    {place : TaskPlace}
    (less : place.remaining attempts < task.place.remaining attempts) :
    ((batch.move index place).release).remaining attempts <
      batch.remaining attempts := by
  have exchanged := remaining_move attempts found place
  have lighter :=
    remaining_release_le attempts
      (permitted.lineQueued_move (permitted.not_mem_line found notQueued) place)
  omega

theorem remaining_giveUp_lt
    (attempts : Nat)
    (permitted : batch.Permitted limit)
    {index : Nat}
    {task : BatchTask}
    (found : batch.tasks[index]? = some task)
    (waits : task.place = .queued ∨ task.place = .granted)
    (fault : Fault) :
    (batch.giveUp index fault).remaining attempts < batch.remaining attempts := by
  have after :
      (TaskPlace.returned (task.call.settle (.error fault)) false).remaining attempts =
        1 :=
    rfl
  rcases waits with queued | granted
  · have before : task.place.remaining attempts = 2 * attempts + 6 := by
      simp [queued, TaskPlace.remaining]
    have filtered :
        ({ batch with line := batch.line.filter (· != index) } : Batch).tasks[index]? =
          some task :=
      found
    have exchanged :=
      remaining_move attempts filtered
        (.returned (task.call.settle (.error fault)) false)
    have longer :
        ({ batch with line := batch.line.filter (· != index) } : Batch).remaining
            attempts ≤
          batch.remaining attempts + 1 := by
      have leaves :
          batch.line.length ≤ (batch.line.filter (· != index)).length + 1 := by
        rw [← permitted.lineNodup.erase_eq_filter]
        have shorter := List.le_length_erase (l := batch.line) (a := index)
        omega
      have sameTotal :
          Batch.total (fun task => task.place.remaining attempts)
              { batch with line := batch.line.filter (· != index) } =
            batch.total fun task => task.place.remaining attempts :=
        rfl
      simp only [remaining, sameTotal]
      omega
    rw [giveUp_of_queued found queued]
    omega
  · have before : task.place.remaining attempts = 2 * attempts + 4 := by
      simp [granted, TaskPlace.remaining]
    rw [giveUp_of_granted found granted]
    exact remaining_passOn_lt attempts permitted found (by simp [granted]) (by omega)

end Batch

namespace Course

variable {policy : RetryPolicy} {limit : Nat} {course next : Course}

/-- The work that remains of a course: that of its batch, the first look of the collector,
and the ends of its context. -/
def remaining (attempts : Nat) (course : Course) : Nat :=
  course.batch.remaining attempts + (if course.opened then 0 else 1) +
    ContextEnds.remaining course.ended

/-- A course whose batch has less before it, and whose context stands as before, has less
before it. -/
private theorem remaining_lt_of_batch
    (attempts : Nat)
    (less : next.batch.remaining attempts < course.batch.remaining attempts)
    (sameLooked : next.opened = course.opened)
    (noLonger :
      ContextEnds.remaining next.ended ≤ ContextEnds.remaining course.ended) :
    next.remaining attempts < course.remaining attempts := by
  simp only [remaining, sameLooked]
  omega

/-- A move takes away from the work that remains. -/
theorem remaining_lt_of_moves
    (moves : Moves policy course next)
    (permitted : course.batch.Permitted limit) :
    next.remaining policy.attempts < course.remaining policy.attempts := by
  cases moves with
  | outside ends =>
      exact Nat.add_lt_add_left ends.remaining_lt _
  | step step =>
      cases step with
      | look notOpened =>
          have lighter :=
            Batch.remaining_dispatch_le policy.attempts course.batch course.ended
          simp only [remaining, look, notOpened, if_true, Bool.false_eq_true, if_false]
          omega
      | @collect index task call began found returned =>
          refine remaining_lt_of_batch policy.attempts ?_ rfl (Nat.le_refl _)
          exact Nat.lt_of_le_of_lt
            (Batch.remaining_dispatch_le policy.attempts _ course.ended)
            (Batch.remaining_collect_lt policy.attempts found returned)
      | request found queued _ outside =>
          exact remaining_lt_of_batch policy.attempts
            (Batch.remaining_request_lt policy.attempts permitted found queued outside)
            rfl (Nat.le_refl _)
      | giveUp found waits _ =>
          exact remaining_lt_of_batch policy.attempts
            (Batch.remaining_giveUp_lt policy.attempts permitted found waits _)
            rfl (Nat.le_refl _)
      | @begin index task stage found granted _ opens =>
          refine remaining_lt_of_batch policy.attempts ?_ rfl (Nat.le_refl _)
          have exchanged :=
            Batch.remaining_move policy.attempts found (.running stage)
          have bounded := opens.remaining_le policy.attempts
          simp only [granted, TaskPlace.remaining] at exchanged
          simp only [enter, Batch.begin]
          omega
      | @proceed index task stage later found running proceeds =>
          refine remaining_lt_of_batch policy.attempts ?_ rfl (Nat.le_refl _)
          have exchanged :=
            Batch.remaining_move policy.attempts found (.running later)
          have less := proceeds.remaining_lt
          simp only [running, TaskPlace.remaining] at exchanged
          simp only [enter, Batch.begin]
          omega
      | @finish index task ending found running =>
          refine remaining_lt_of_batch policy.attempts ?_ rfl ?_
          · rw [batch_finish found]
            apply Batch.remaining_passOn_lt policy.attempts (permitted.mark _)
            · exact found
            · simp [running]
            · simp [running, TaskPlace.remaining, Stage.remaining]
          · rw [ended_finish found]
            split
            · simp [ContextEnds.remaining]
            · exact Nat.le_refl _

/-- A task with a permit can do something. -/
theorem exists_step_of_holder
    (policy : RetryPolicy)
    {index : Nat}
    {task : BatchTask}
    (found : course.batch.tasks[index]? = some task)
    (holds : task.place.holdsPermit = true) :
    ∃ next, Step policy course next := by
  cases place : task.place with
  | granted =>
      cases ended : course.ended with
      | none =>
          exact ⟨_, .begin found place ended .admitted⟩
      | some fault =>
          exact ⟨_, .giveUp found (Or.inr place) ended⟩
  | running stage =>
      by_cases isOver : ∃ ending, stage = .ended ending
      · obtain ⟨ending, isEnded⟩ := isOver
        rw [isEnded] at place
        exact ⟨_, .finish found place⟩
      · obtain ⟨later, proceeds⟩ :=
          Stage.exists_proceeds policy task.call.name course.ended
            fun ending isEnded => isOver ⟨ending, isEnded⟩
        exact ⟨_, .proceed found place proceeds⟩
  | held =>
      simp [place, TaskPlace.holdsPermit] at holds
  | queued =>
      simp [place, TaskPlace.holdsPermit] at holds
  | returned call began =>
      simp [place, TaskPlace.holdsPermit] at holds
  | collected call =>
      simp [place, TaskPlace.holdsPermit] at holds

/-- While a task waits in the line, another one has a permit and can do something. -/
theorem exists_step_of_line
    (policy : RetryPolicy)
    (permitted : course.batch.Permitted limit)
    (positive : 0 < limit)
    {index : Nat}
    (inLine : index ∈ course.batch.line) :
    ∃ next, Step policy course next := by
  have noneFree : course.batch.permits = 0 :=
    permitted.noneFree (List.ne_nil_of_mem inLine)
  have balance := permitted.balance
  have someHolder :
      0 < course.batch.tasks.countP (·.place.holdsPermit) := by
    omega
  obtain ⟨task, member, holds⟩ := List.countP_pos_iff.mp someHolder
  obtain ⟨other, found⟩ := List.mem_iff_getElem?.mp member
  exact exists_step_of_holder policy found holds

/-- Unless a course is over, something can be done. -/
theorem exists_step
    (policy : RetryPolicy)
    (permitted : course.batch.Permitted limit)
    (positive : 0 < limit)
    (goesOn : ¬ course.IsOver) :
    ∃ next, Step policy course next := by
  by_cases opened : course.opened = true
  · have someActive :
        ∃ task ∈ course.batch.tasks,
          task.place ≠ .held ∧ task.place.isCollected = false := by
      by_contra noneActive
      apply goesOn
      refine ⟨opened, fun task member => ?_⟩
      by_contra notOver
      apply noneActive
      refine ⟨task, member, fun held => notOver (Or.inl held), ?_⟩
      by_contra collected
      exact notOver (Or.inr (by simpa using collected))
    obtain ⟨task, member, notHeld, notCollected⟩ := someActive
    obtain ⟨index, found⟩ := List.mem_iff_getElem?.mp member
    cases place : task.place with
    | held =>
        exact (notHeld place).elim
    | queued =>
        cases ended : course.ended with
        | some fault =>
            exact ⟨_, .giveUp found (Or.inl place) ended⟩
        | none =>
            by_cases inLine : index ∈ course.batch.line
            · exact exists_step_of_line policy permitted positive inLine
            · exact ⟨_, .request found place ended inLine⟩
    | granted =>
        exact exists_step_of_holder policy found (by simp [place, TaskPlace.holdsPermit])
    | running stage =>
        exact exists_step_of_holder policy found (by simp [place, TaskPlace.holdsPermit])
    | returned call began =>
        exact ⟨_, .collect found place⟩
    | collected call =>
        simp [place, TaskPlace.isCollected] at notCollected
  · exact ⟨_, .look (by simpa using opened)⟩

/-- A course comes to a return, however its tasks take turns. -/
theorem concludes
    (policy : RetryPolicy)
    (permitted : course.batch.Permitted limit)
    (positive : 0 < limit) :
    (Conduct.together course).Concludes policy := by
  -- The induction is on the work that remains, which every move takes away from.
  generalize work : course.remaining policy.attempts = amount
  induction amount using Nat.strong_induction_on generalizing course with
  | _ amount inductionHypothesis =>
      by_cases isOver : course.IsOver
      · exact .returned (.together isOver)
      · obtain ⟨next, step⟩ := exists_step policy permitted positive isOver
        refine .goesOn (.together step) ?_
        intro later moves
        obtain ⟨laterCourse, isLater, courseMoves⟩ := Conduct.together_of_moves moves
        rw [isLater]
        have less := remaining_lt_of_moves courseMoves permitted
        rw [work] at less
        exact inductionHypothesis _ less
          (permitted_of_moves courseMoves permitted) rfl

end Course

namespace Lone

/-- The work that remains of an invocation that may not have begun. -/
def remainingOf (attempts : Nat) : Option (Stage String) → Nat
  | none => 2 * attempts + 2
  | some stage => stage.remaining attempts

/-- The work that remains of a lone call. -/
def remaining (attempts : Nat) (lone : Lone) : Nat :=
  remainingOf attempts lone.stage + ContextEnds.remaining lone.ended

/-- Unless its invocation is over, a lone call can do something. -/
theorem exists_step
    (policy : RetryPolicy)
    {lone : Lone}
    (goesOn : ∀ ending, lone.stage ≠ some (.ended ending)) :
    ∃ next, Step policy lone next := by
  cases stage : lone.stage with
  | none =>
      exact ⟨_, .begin stage .admitted⟩
  | some current =>
      obtain ⟨later, proceeds⟩ :=
        Stage.exists_proceeds policy lone.call.name lone.ended
          fun ending isEnded => goesOn ending (stage.trans (congrArg some isEnded))
      exact ⟨_, .proceed stage proceeds⟩

theorem remaining_lt_of_step
    {policy : RetryPolicy}
    {lone next : Lone}
    (step : Step policy lone next) :
    next.remaining policy.attempts < lone.remaining policy.attempts := by
  cases step with
  | begin notBegun opens =>
      have bounded := opens.remaining_le policy.attempts
      simp only [remaining, remainingOf, notBegun]
      omega
  | proceed underway proceeds =>
      have less := proceeds.remaining_lt
      simp only [remaining, remainingOf, underway]
      omega

/-- One call alone comes to a return. -/
theorem concludes
    (policy : RetryPolicy)
    (lone : Lone) :
    (Conduct.alone lone).Concludes policy := by
  generalize work : lone.remaining policy.attempts = amount
  induction amount using Nat.strong_induction_on generalizing lone with
  | _ amount inductionHypothesis =>
      by_cases isOver : ∃ ending, lone.stage = some (.ended ending)
      · obtain ⟨ending, isEnded⟩ := isOver
        exact .returned (.alone isEnded)
      · obtain ⟨next, step⟩ :=
          exists_step policy fun ending isEnded => isOver ⟨ending, isEnded⟩
        refine .goesOn (.alone step) ?_
        intro later moves
        cases moves with
        | aloneOutside ends =>
            have less :=
              Nat.add_lt_add_left ends.remaining_lt
                (remainingOf policy.attempts lone.stage)
            rw [← work] at inductionHypothesis
            exact inductionHypothesis _ less _ rfl
        | step loneMoves =>
            cases loneMoves with
            | alone loneStep =>
                have less := remaining_lt_of_step loneStep
                rw [work] at less
                exact inductionHypothesis _ less _ rfl

end Lone

end Runbook
