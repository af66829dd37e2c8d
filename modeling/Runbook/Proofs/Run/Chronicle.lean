import Runbook.Proofs.Run.Endings
import Runbook.Proofs.Run.Episodes
import Runbook.Proofs.Run.Plans

namespace Runbook

/-!
# The chronicle of a run

The events, the trace and the report of a run are written by many hands, and still tell one
story: one episode after the other, of which only the last may break off, and then the end.
-/

namespace Call

/-- Settled calls have the ids and the names of what they were. -/
theorem map_of_settled
    {calls results : List Call}
    (settled : List.Forall₂ (fun call result => ∃ outcome, result = call.settle outcome) calls
      results) :
    results.map (fun call => (call.id, call.name)) =
      calls.map fun call => (call.id, call.name) := by
  induction settled with
  | nil =>
      rfl
  | cons settles _ inductionHypothesis =>
      obtain ⟨outcome, isSettled⟩ := settles
      rw [List.map_cons, List.map_cons, inductionHypothesis, isSettled, id_settle, name_settle]

end Call

namespace Crew

variable {σ : Type} {crew : Crew σ} {policy : RetryPolicy} {config : BatchConfig}

/-- Of a decision at most one entry is noted. -/
theorem exists_follow
    (decision : Decision)
    (journal : Journal)
    (told : List String) :
    ∃ remark, (follow decision (journal.review told none)).2 = journal.review told remark := by
  have notes (summary : String) :
      (journal.review told none).note .replanning summary =
        journal.review told (some summary) := by
    simp [Journal.review, Journal.note, Trace.add]
  cases decision with
  | complete answer =>
      exact ⟨_, notes "complete"⟩
  | abort reason =>
      exact ⟨_, notes ("abort: " ++ reason)⟩
  | goOn plan =>
      cases isEmpty : plan.isEmpty with
      | true =>
          refine ⟨none, ?_⟩
          simp only [follow, isEmpty]
          rfl
      | false =>
          refine ⟨some ("continue with " ++ toString plan.steps.length ++ " step(s)"), ?_⟩
          simp only [follow, isEmpty]
          exact notes _

/-- What the reviewer says is told, and what is decided is noted. -/
theorem exists_review
    (crew : Crew σ)
    {journal : Journal}
    (isExecuting : journal.state.phase = .executing)
    (state : σ) :
    ∃ told remark,
      (crew.reviewResults journal state).2.1 = journal.review told remark := by
  have enters := Journal.enter_eq_switch isExecuting .replanning nofun rfl
  cases isReviewed :
      crew.review (journal.switch .replanning).state.objective
        (journal.switch .replanning).state.results state with
  | mk reviewed later =>
      obtain ⟨ending, told⟩ := reviewed
      refine ⟨told, ?_⟩
      simp only [reviewResults, enters, isReviewed, Journal.review_of_undecided]
      cases ending with
      | brokeDown =>
          exact ⟨none, rfl⟩
      | finished result =>
          cases result with
          | error fault =>
              exact ⟨none, rfl⟩
          | ok decision =>
              exact exists_follow decision journal told

/-- An ending of a run at which its results have been reviewed. -/
def ComesToReview : Next Plan → Prop
  | .goOn _ => True
  | .ended ending => ∃ answer, ending = .value answer

/-- A plan is carried out as far as it is; a run that goes on, or has an answer, has had it
reviewed. -/
theorem exists_perform
    (carriesOut : crew.CarriesOutPlans policy config)
    (plan : Plan)
    {journal : Journal}
    (isPlanning : journal.state.phase = .planning)
    (state : σ) :
    ∃ performance,
      (crew.carryOutPlan plan journal state).2.1 = journal.perform performance ∧
        performance.Fits plan ∧
          (ComesToReview (crew.carryOutPlan plan journal state).1 →
            performance.isReviewed = true) := by
  have enters := Journal.enter_eq_switch isPlanning .executing nofun rfl
  have settles := carriesOut.settles plan state
  cases isCarried : crew.carryOut plan state with
  | mk carried performed =>
      rw [isCarried] at settles
      dsimp only at settles
      cases settles with
      | refused name =>
          refine ⟨.unfinished, ?_, trivial, ?_⟩
          · simp only [carryOutPlan, enters, isCarried]
            exact journal.perform_unfinished
          · simp only [carryOutPlan, enters, isCarried]
            rintro ⟨answer, isAnswer⟩
            cases isAnswer
      | brokeDown =>
          refine ⟨.unfinished, ?_, trivial, ?_⟩
          · simp only [carryOutPlan, enters, isCarried]
            exact journal.perform_unfinished
          · simp only [carryOutPlan, enters, isCarried]
            rintro ⟨answer, isAnswer⟩
            cases isAnswer
      | @calls results settled =>
          have fits := Call.map_of_settled settled
          cases isLooked : crew.look performed with
          | mk ended looked =>
              cases ended with
              | some fault =>
                  refine ⟨.unreviewed results, ?_, fits, ?_⟩
                  · simp only [carryOutPlan, enters, isCarried, isLooked]
                    exact journal.perform_unreviewed results
                  · simp only [carryOutPlan, enters, isCarried, isLooked]
                    rintro ⟨answer, isAnswer⟩
                    cases isAnswer
              | none =>
                  have isExecuting :
                      (journal.perform (.unreviewed results)).state.phase = .executing := rfl
                  obtain ⟨told, remark, isReviewed⟩ := exists_review crew isExecuting looked
                  refine ⟨.reviewed results told remark, ?_, fits, fun _ => rfl⟩
                  simp only [carryOutPlan, enters, isCarried, isLooked,
                    Journal.perform_unreviewed, isReviewed]
                  exact journal.perform_reviewed results told remark

section

variable {objective : String} {results : List Call} {pending : Option Plan}
  {deeds : List Deed}

/-- Without a plan that is pending the planner is asked. -/
theorem Chooses.source
    {plan : Plan}
    {source : PlanSource}
    (chooses : Chooses objective results pending deeds (.goOn (plan, source))) :
    source = if pending.isNone then .planner else .replanner := by
  cases chooses <;> rfl

theorem Chooses.ne_value
    {ending : Ending String}
    (chooses : Chooses objective results pending deeds (.ended ending))
    (answer : String) :
    ending ≠ .value answer := by
  cases chooses <;> nofun

end

/-- Every iteration is an episode, and a full one if the run goes on or has an answer. -/
theorem exists_record
    (carriesOut : crew.CarriesOutPlans policy config)
    {pending : Option Plan}
    {journal : Journal}
    (mayPlan : journal.state.phase = .planning ∨ journal.state.phase = .replanning)
    (isFirst : pending.isNone ↔ journal.state.iteration = 0)
    (state : σ) :
    ∃ episode,
      (crew.iterate pending journal state).2.1 = journal.record episode ∧
        episode.Fits ∧
          (ComesToReview (crew.iterate pending journal state).1 → episode.isFull = true) := by
  have enters := Journal.enter_planning mayPlan
  obtain ⟨deeds, -, chooses⟩ :=
    choosePlan_noted crew pending (journal.nextIteration.switch .planning) state []
  cases chosen : crew.choosePlan pending (journal.nextIteration.switch .planning) state with
  | mk choice chosenState =>
      rw [chosen] at chooses
      cases choice with
      | ended ending =>
          refine ⟨.unplanned, ?_, trivial, ?_⟩
          · simp only [iterate, enters, chosen]
            exact journal.record_unplanned
          · simp only [iterate, enters, chosen]
            rintro ⟨answer, isAnswer⟩
            exact absurd isAnswer (chooses.ne_value answer)
      | goOn choice =>
          obtain ⟨plan, source⟩ := choice
          have isSource : source = .ofIteration (journal.state.iteration + 1) := by
            simp [chooses.source, PlanSource.ofIteration, isFirst]
          have isPlanning :
              ((journal.nextIteration.switch .planning).adopt plan source).state.phase =
                .planning := rfl
          obtain ⟨performance, isPerformed, fits, isReviewed⟩ :=
            exists_perform carriesOut plan isPlanning chosenState
          refine ⟨.planned plan performance, ?_, fits, ?_⟩
          · simp only [iterate, enters, chosen, isPerformed]
            rw [isSource]
            exact journal.record_planned plan performance
          · simp only [iterate, enters, chosen]
            exact isReviewed

/-- Iterations until the run is over are episodes, all of them full but the last. -/
theorem exists_records
    (carriesOut : crew.CarriesOutPlans policy config)
    (limit left : Nat)
    {pending : Option Plan}
    {journal : Journal}
    (mayPlan : journal.state.phase = .planning ∨ journal.state.phase = .replanning)
    (isFirst : pending.isNone ↔ journal.state.iteration = 0)
    (state : σ) :
    ∃ episodes : List Episode,
      (crew.carryOn limit left pending journal state).2.1 =
          episodes.foldl Journal.record journal ∧
        (∀ episode ∈ episodes, episode.Fits) ∧
          (∀ episode ∈ episodes.dropLast, episode.isFull = true) ∧
            ∀ answer, (crew.carryOn limit left pending journal state).1 = .value answer →
              ∃ episode ∈ episodes.getLast?, episode.isFull = true := by
  induction left generalizing pending journal state with
  | zero =>
      cases isLooked : crew.look state with
      | mk ended looked =>
          cases ended with
          | some fault =>
              refine ⟨[], ?_, List.forall_mem_nil _, List.forall_mem_nil _, ?_⟩
              · simp only [carryOn, isLooked]
                rfl
              · simp only [carryOn, isLooked]
                intro answer isAnswer
                cases isAnswer
          | none =>
              refine ⟨[], ?_, List.forall_mem_nil _, List.forall_mem_nil _, ?_⟩
              · simp only [carryOn, isLooked]
                rfl
              · simp only [carryOn, isLooked]
                intro answer isAnswer
                cases isAnswer
  | succ left inductionHypothesis =>
      cases isLooked : crew.look state with
      | mk ended looked =>
          cases ended with
          | some fault =>
              refine ⟨[], ?_, List.forall_mem_nil _, List.forall_mem_nil _, ?_⟩
              · simp only [carryOn, isLooked]
                rfl
              · simp only [carryOn, isLooked]
                intro answer isAnswer
                cases isAnswer
          | none =>
              obtain ⟨episode, isRecorded, fits, isFull⟩ :=
                exists_record carriesOut mayPlan isFirst looked
              cases iterated : crew.iterate pending journal looked with
              | mk next rest =>
                  obtain ⟨between, iteratedState⟩ := rest
                  rw [iterated] at isRecorded isFull
                  dsimp only at isRecorded isFull
                  cases next with
                  | ended ending =>
                      refine ⟨[episode], ?_, ?_, List.forall_mem_nil _, ?_⟩
                      · simp only [carryOn, isLooked, iterated]
                        exact isRecorded
                      · simpa using fits
                      · simp only [carryOn, isLooked, iterated]
                        intro answer isAnswer
                        exact ⟨episode, rfl, isFull ⟨answer, isAnswer⟩⟩
                  | goOn plan =>
                      have isWhole := isFull trivial
                      have isReplanning : between.state.phase = .replanning := by
                        rw [isRecorded]
                        exact Episode.phase_of_isFull isWhole
                      have isLater : (some plan).isNone ↔ between.state.iteration = 0 := by
                        rw [isRecorded]
                        simp [Journal.record]
                      obtain ⟨episodes, areRecorded, allFit, allFull, lastFull⟩ :=
                        inductionHypothesis (Or.inr isReplanning) isLater iteratedState
                      refine ⟨episode :: episodes, ?_, List.forall_mem_cons.mpr ⟨fits, allFit⟩,
                        ?_, ?_⟩
                      · simp only [carryOn, isLooked, iterated, areRecorded]
                        rw [List.foldl_cons, isRecorded]
                      · intro other isEarlier
                        cases episodes with
                        | nil =>
                            cases isEarlier
                        | cons second rest =>
                            rcases List.mem_cons.mp isEarlier with isThis | inRest
                            · rw [isThis]
                              exact isWhole
                            · exact allFull other inRest
                      · simp only [carryOn, isLooked, iterated]
                        intro answer isAnswer
                        obtain ⟨last, isLast, lastWhole⟩ := lastFull answer isAnswer
                        refine ⟨last, ?_, lastWhole⟩
                        rw [Option.mem_def] at isLast ⊢
                        rw [List.getLast?_cons, isLast]
                        rfl

end Crew

/-- A report, its events and its trace tell these episodes and then the end. -/
structure Report.Tells (report : Report) (episodes : List Episode) : Prop where
  /-- There is an episode for each iteration. -/
  counted : report.journal.state.iteration = episodes.length
  /-- Only the last one may break off. -/
  full : ∀ episode ∈ episodes.dropLast, episode.isFull = true
  /-- In each the results are those of the steps of its plan, in order. -/
  fits : ∀ episode ∈ episodes, episode.Fits
  results : report.journal.state.results = episodes.flatMap Episode.results
  /-- After the episodes the last phase is told, and the end. -/
  events : report.journal.events =
    ((episodes.zipIdx 1).flatMap fun entry => entry.1.events entry.2) ++
      [.phaseChanged episodes.length report.outcome.phase, report.outcome.event]
  /-- After the episodes the end is traced. -/
  entries : report.journal.trace.entries =
    ((episodes.zipIdx 1).flatMap fun entry => entry.1.entries entry.2) ++
      [⟨episodes.length, report.outcome.phase, report.outcome.summary, []⟩]
  phase : report.journal.state.phase = report.outcome.phase
  isFinished : report.journal.trace.isFinished = true
  /-- The plans that are told are those that are traced. -/
  plans : report.journal.events.filterMap Event.planned? =
    report.journal.trace.entries.filterMap TraceEntry.planned?
  /-- The steps that are told to be over are those that are traced. -/
  steps : report.journal.events.filterMap Event.step? =
    report.journal.trace.entries.flatMap TraceEntry.stepsOver
  /-- One entry is about the end. -/
  ends : report.journal.trace.entries.countP (·.phase.isTerminal) = 1

namespace Report

/-- A run that has written down episodes, all of them full but the last, tells them. -/
theorem tells_of_records
    {result : Except Fault String}
    {runId objective : String}
    {episodes : List Episode}
    (fits : ∀ episode ∈ episodes, episode.Fits)
    (full : ∀ episode ∈ episodes.dropLast, episode.isFull = true)
    (lastFull : ∀ answer, (.finished result : Ending String) = .value answer →
      ∃ episode ∈ episodes.getLast?, episode.isFull = true) :
    (of result (episodes.foldl Journal.record (.start runId objective))).Tells episodes := by
  have isPhase := Journal.phase_records episodes (.start runId objective)
  have isOpen :
      ((episodes.getLast?.map Episode.phase).getD
        (Journal.start runId objective).state.phase).isTerminal = false := by
    cases episodes.getLast? with
    | none =>
        rfl
    | some last =>
        exact last.phase_isOpen
  have mayEnd :
      ((episodes.getLast?.map Episode.phase).getD
        (Journal.start runId objective).state.phase).mayLeadTo
          (of result (episodes.foldl Journal.record (.start runId objective))).outcome.phase =
        true := by
    cases result with
    | error fault =>
        exact Phase.mayLeadTo_failed isOpen
    | ok answer =>
        obtain ⟨last, isLast, isFull⟩ := lastFull answer rfl
        rw [Option.mem_def.mp isLast, Option.map_some, Option.getD_some,
          Episode.phase_of_isFull isFull]
        rfl
  have closes := of_eq isPhase isOpen mayEnd
  generalize of result (episodes.foldl Journal.record (.start runId objective)) = report
    at closes
  have count := Journal.iteration_records episodes (.start runId objective)
  have told := Journal.events_records episodes (.start runId objective)
  have traced := Journal.entries_records episodes (.start runId objective)
  have results := Journal.results_records episodes (.start runId objective)
  generalize episodes.foldl Journal.record (.start runId objective) = journal
    at closes count told traced results
  have isCount : journal.state.iteration = episodes.length := count.trans (Nat.zero_add _)
  have events :
      report.journal.events =
        ((episodes.zipIdx 1).flatMap fun entry => entry.1.events entry.2) ++
          [.phaseChanged episodes.length report.outcome.phase, report.outcome.event] := by
    rw [closes, ← isCount]
    simp [Journal.finish, Journal.tell, Journal.note, Journal.switch, told, Journal.start]
  have entries :
      report.journal.trace.entries =
        ((episodes.zipIdx 1).flatMap fun entry => entry.1.entries entry.2) ++
          [⟨episodes.length, report.outcome.phase, report.outcome.summary, []⟩] := by
    rw [closes, ← isCount]
    simp [Journal.finish, Journal.tell, Journal.note, Journal.switch, traced, Journal.start,
      Trace.add, Trace.finish]
  refine ⟨?_, full, fits, ?_, events, entries, ?_, ?_, ?_, ?_, ?_⟩
  · rw [closes]
    exact isCount
  · rw [closes]
    exact results
  · rw [closes]
    rfl
  · rw [closes]
    rfl
  · have noPlan :
        ([⟨episodes.length, report.outcome.phase, report.outcome.summary, []⟩] :
          List TraceEntry).filterMap TraceEntry.planned? = [] := by
      cases report.outcome <;> rfl
    have noneTold :
        [.phaseChanged episodes.length report.outcome.phase, report.outcome.event].filterMap
          Event.planned? = [] := by
      cases report.outcome <;> rfl
    simp only [events, entries, List.filterMap_append, List.filterMap_flatMap,
      Episode.planned?_events, noPlan, noneTold]
  · have noneTold :
        [.phaseChanged episodes.length report.outcome.phase, report.outcome.event].filterMap
          Event.step? = [] := by
      cases report.outcome <;> rfl
    simp only [events, entries, List.filterMap_append, List.flatMap_append,
      List.filterMap_flatMap, List.flatMap_assoc, Episode.step?_events, noneTold]
    rfl
  · have noEarlier :
        ((episodes.zipIdx 1).flatMap fun entry => entry.1.entries entry.2).countP
          (·.phase.isTerminal) = 0 := by
      rw [List.countP_eq_zero]
      intro entry isEntry
      obtain ⟨episode, -, inEpisode⟩ := List.mem_flatMap.mp isEntry
      rw [episode.1.isOpen_of_mem_entries inEpisode]
      exact Bool.false_ne_true
    have isLast : report.outcome.phase.isTerminal = true := by
      cases report.outcome <;> rfl
    rw [entries, List.countP_append, noEarlier, List.countP_singleton, isLast]
    rfl

end Report

namespace Crew

variable {σ : Type} {crew : Crew σ} {policy : RetryPolicy} {config : BatchConfig}

/-- Whoever plans and reviews, whatever the tools and the context do: the report of a run
tells its episodes, and a fault for which it fails was given to it or is the limit's. -/
theorem tells_of_carriesOutPlans
    (carriesOut : crew.CarriesOutPlans policy config)
    (limit : Nat)
    (runId objective : String)
    (state : σ) :
    ∃ report? later deeds,
      crew.run limit runId objective state = (report?, later) ∧
        crew.noted.run limit runId objective (state, []) = (report?, later, deeds) ∧
          Concludes report? deeds ∧
            ∀ report, report? = some report → ∃ episodes, report.Tells episodes := by
  obtain ⟨report?, later, deeds, isRun, isNoted, concludes⟩ :=
    concludes_run crew limit runId objective state
  refine ⟨report?, later, deeds, isRun, isNoted, concludes, fun report isReport => ?_⟩
  have isFirst :
      (none : Option Plan).isNone ↔ (Journal.start runId objective).state.iteration = 0 :=
    ⟨fun _ => rfl, fun _ => rfl⟩
  obtain ⟨episodes, areRecorded, fits, full, lastFull⟩ :=
    exists_records carriesOut (iterations limit) (iterations limit) (Or.inl rfl) isFirst state
  unfold run at isRun
  cases ran :
      crew.carryOn (iterations limit) (iterations limit) none (.start runId objective) state with
  | mk ending rest =>
      rw [ran] at isRun areRecorded lastFull
      cases ending with
      | brokeDown =>
          rw [← (Prod.mk.inj isRun).1] at isReport
          cases isReport
      | finished result =>
          rw [← (Prod.mk.inj isRun).1] at isReport
          cases isReport
          dsimp only at areRecorded
          rw [areRecorded]
          exact ⟨episodes, Report.tells_of_records fits full lastFull⟩

/-- A crew with a planner that knows one step, and a reviewer that goes on with another one
and then has an answer. -/
def talkativeCrew : Crew Rehearsal.Studio :=
  Rehearsal.Studio.crew { batch := { timeout := none } } 0 ""
    (some [{ result := .ok ⟨[.ofTool "p" .null], []⟩ }])
    (some [{ result := some (.ok (.goOn ⟨[.ofTool "q" .null], []⟩)) },
      { result := some (.ok (.complete "a")) }])

/-- A run with that crew, without any tool, tells two full episodes. -/
theorem tells_of_carriesOutPlans_twice :
    ∃ (report : Report) (episodes : List Episode),
      report.Tells episodes ∧ episodes.length = 2 ∧ report.outcome = .done "a" ∧
        report.journal.events.filterMap Event.step? =
          [(1, "p", "p", false), (2, "q", "q", false)] := by
  obtain ⟨report?, later, deeds, isRun, -, -, tells⟩ :=
    tells_of_carriesOutPlans
      (Rehearsal.Studio.carriesOutPlans { batch := { timeout := none } } 0 ""
        (some [{ result := .ok ⟨[.ofTool "p" .null], []⟩ }])
        (some [{ result := some (.ok (.goOn ⟨[.ofTool "q" .null], []⟩)) },
          { result := some (.ok (.complete "a")) }]))
      3 "r" "o" { world := { tree := ContextTree.root {} } }
  rw [← talkativeCrew] at isRun
  have isReport :
      (talkativeCrew.run 3 "r" "o" { world := { tree := ContextTree.root {} } }).1.map
          (fun report => (report.outcome, report.journal.state.iteration)) =
        some (.done "a", 2) := by
    decide +kernel
  have areTold :
      (talkativeCrew.run 3 "r" "o" { world := { tree := ContextTree.root {} } }).1.map
          (fun report => report.journal.events.filterMap Event.step?) =
        some [(1, "p", "p", false), (2, "q", "q", false)] := by
    decide +kernel
  rw [isRun] at isReport areTold
  cases report? with
  | none =>
      cases isReport
  | some report =>
      obtain ⟨episodes, isTold⟩ := tells report rfl
      obtain ⟨isOutcome, isCount⟩ := Prod.mk.inj (Option.some.inj isReport)
      exact ⟨report, episodes, isTold, isTold.counted.symm.trans isCount, isOutcome,
        Option.some.inj areTold⟩

end Crew

end Runbook
