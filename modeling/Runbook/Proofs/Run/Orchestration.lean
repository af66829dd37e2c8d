import Runbook.Proofs.Run.Reliable
import Runbook.Proofs.Run.Rounds

namespace Runbook

/-!
# Runs for an objective

A run with a reliable crew comes to a report, unless somebody breaks down.  Its iterations stay
within the limit, each sees what all before it came to, and each carries out the plan that the
one before it left.  Whoever plans and reviews may answer what they like.
-/

namespace Journal

variable {journal later : Journal}

theorem state_of_enter
    {next : Phase}
    (enters : journal.enter next = .ok later) :
    ∃ phase, later.state = { journal.state with phase := phase } := by
  unfold enter at enters
  split at enters
  · cases enters
  · rename_i entered isEntered
    have sameState : later.state = entered := by
      dsimp only at enters
      split at enters <;> cases enters <;> rfl
    rw [sameState]
    unfold RunState.enter at isEntered
    split at isEntered
    · cases isEntered
      exact ⟨journal.state.phase, rfl⟩
    · split at isEntered <;> cases isEntered
      exact ⟨next, rfl⟩

/-- Closing a journal changes at most the phase of its run. -/
theorem state_close
    (journal : Journal)
    (phase : Phase)
    (summary : String) :
    ∃ last, (journal.close phase summary).state = { journal.state with phase := last } := by
  unfold close
  split
  · exact ⟨journal.state.phase, rfl⟩
  · split
    · exact ⟨journal.state.phase, rfl⟩
    · rename_i entered isEntered
      obtain ⟨last, isLast⟩ := state_of_enter isEntered
      exact ⟨last, isLast⟩

end Journal

namespace Report

/-- A report has the results and the iterations of its run. -/
theorem state_of
    (result : Except Fault String)
    (journal : Journal) :
    (of result journal).journal.state.results = journal.state.results ∧
      (of result journal).journal.state.iteration = journal.state.iteration := by
  have keeps (phase : Phase) (summary : String) :
      (journal.close phase summary).state.results = journal.state.results ∧
        (journal.close phase summary).state.iteration = journal.state.iteration := by
    obtain ⟨last, isClosed⟩ := journal.state_close phase summary
    rw [isClosed]
    exact ⟨rfl, rfl⟩
  cases result with
  | ok answer =>
      exact keeps .done "answer ready"
  | error fault =>
      exact keeps .failed (Outcome.reason fault)

theorem outcome_of
    (result : Except Fault String)
    (journal : Journal)
    (fault : Fault) :
    (of result journal).outcome = .failed fault ↔
      (.finished result : Ending String) = .fault fault := by
  cases result <;> simp [of, Ending.fault]

end Report

namespace Crew

variable {σ : Type} {crew : Crew σ}

/-- What holds of a run with its rounds and its report. -/
structure Orchestrates (limit : Nat) (rounds : List (List Deed)) (report : Report) :
    Prop where
  /-- There is a round for each iteration, and there are no more than the limit allows. -/
  counted : rounds.length = report.journal.state.iteration ∧ rounds.length ≤ max limit 1
  /-- The planner is asked once at most, in the first round. -/
  plansOnce : rounds.flatten.countP Deed.isPlanning ≤ 1 ∧
    rounds.tail.flatten.countP Deed.isPlanning = 0
  /-- The reviewer is asked once at most in each round. -/
  reviewsOnce : ∀ round ∈ rounds, round.countP Deed.isReview ≤ 1
  /-- The reviewer sees each time what the plans of all rounds up to then came to. -/
  sees : ∀ count seen, (rounds.flatten.filterMap Deed.seen?)[count]? = some seen →
    seen = (rounds.take (count + 1)).flatten.flatMap Deed.results
  /-- The report has what all plans came to. -/
  results : report.journal.state.results = rounds.flatten.flatMap Deed.results
  /-- A round that another one follows goes on with the plan that is carried out there. -/
  continues : ∀ count round next, rounds[count]? = some round →
    rounds[count + 1]? = some next →
      ∃ plan, ContinuesWith plan round ∧ next.filterMap Deed.carried? = [plan]
  /-- The run fails at the limit exactly if every round that it allows goes on, or if the
  planner or the reviewer fails with that fault. -/
  limited : ∀ other, report.outcome = .failed (.iterationLimit other) ↔
    (other = max limit 1 ∧ rounds.length = max limit 1 ∧
        ∀ round ∈ rounds, ∃ plan, ContinuesWith plan round) ∨
      ∃ deed ∈ rounds.flatten, deed.FailsWith (.iterationLimit other)

/-- A run with a reliable crew in which nobody breaks down comes to a report.  What the crew did,
written down in its order, is a look at the context and then one round after the other. -/
theorem orchestrates_of_reliable
    (reliable : crew.Reliable)
    (limit : Nat)
    (runId objective : String)
    (state : σ)
    (nobodyBreaks : ∀ deed ∈ (crew.noted.run limit runId objective (state, [])).2.2,
      deed.breaksDown = false) :
    ∃ report later head rounds,
      crew.run limit runId objective state = (some report, later) ∧
        crew.noted.run limit runId objective (state, []) =
            (some report, later, .looked head :: rounds.flatten) ∧
          Orchestrates limit rounds report := by
  obtain ⟨head, rounds, isNoted, isCounted, runs⟩ :=
    carryOn_noted crew (iterations limit) (iterations limit) none (.start runId objective)
      (Or.inl rfl) state []
  have noneYet : ∀ deed ∈ ((state, []) : σ × List Deed).2, deed.Reliable := nofun
  have allReliable :=
    reliable.keeps_noted.carryOn (iterations limit) (iterations limit) none
      (.start runId objective) noneYet
  rw [isNoted] at allReliable
  obtain ⟨returns, isLimit⟩ := runs.endsBy allReliable
  cases isRun :
      crew.carryOn (iterations limit) (iterations limit) none (.start runId objective) state with
  | mk ending rest =>
      obtain ⟨journal, later⟩ := rest
      rw [isRun] at isNoted isCounted runs returns isLimit
      dsimp only at isNoted isCounted runs returns isLimit
      cases ending with
      | brokeDown =>
          simp only [run, isNoted, List.nil_append] at nobodyBreaks
          obtain ⟨deed, isDone, breaksDown⟩ := returns rfl
          rw [nobodyBreaks deed (List.mem_cons_of_mem _ isDone)] at breaksDown
          cases breaksDown
      | finished result =>
          refine ⟨.of result journal, later, head, rounds, ?_, ?_, ?_⟩
          · simp only [run, isRun]
          · simp only [run, isNoted, List.nil_append]
          · obtain ⟨sameResults, sameCount⟩ := Report.state_of result journal
            refine ⟨⟨?_, runs.length_le⟩, runs.plannings_le, fun round => runs.reviews_le,
              fun count seen => runs.sees, ?_, fun count round next => runs.continues,
              fun other => ?_⟩
            · rw [sameCount, isCounted]
              exact (Nat.zero_add _).symm
            · rw [sameResults]
              exact runs.results_eq
            · rw [Report.outcome_of, isLimit other]
              refine or_congr_left ⟨?_, ?_⟩
              · rintro ⟨isThis, _, isFull, continues⟩
                exact ⟨isThis, isFull, continues⟩
              · rintro ⟨isThis, isFull, continues⟩
                -- There is a first round, so the look before it found nothing.
                have isNonempty : rounds ≠ [] := by
                  rintro rfl
                  exact Nat.ne_of_lt (Nat.le_max_right limit 1) isFull
                exact ⟨isThis, runs.head_eq_none isNonempty, isFull, continues⟩

/-- A planner and a reviewer that always answer the same, without tools. -/
def steadyCrew (planned : Except Fault Plan) (decided : Decision) : Crew Rehearsal.Studio :=
  Rehearsal.Studio.crew {} 0 "" (some [{ result := planned }])
    (some [{ result := some (.ok decided) }])

/-- A run with such a crew, and what the crew did. -/
def steadyRun (limit : Nat) (planned : Except Fault Plan) (decided : Decision) :
    Option Report × Rehearsal.Studio × List Deed :=
  (steadyCrew planned decided).noted.run limit "r" "o"
    ({ world := { tree := ContextTree.root {} } }, [])

/-- A reviewer that always goes on takes a run to its limit, and its plan is carried out in
the second round. -/
theorem orchestrates_of_reliable_limit :
    ∃ report rounds,
      Orchestrates 2 rounds report ∧ rounds.length = 2 ∧
        report.outcome = .failed (.iterationLimit 2) ∧
          rounds.flatten.filterMap Deed.carried? =
            [⟨[.ofTool "q" .null], []⟩, ⟨[.ofTool "p" .null], []⟩] := by
  have nobodyBreaks :
      ∀ deed ∈ (steadyRun 2 (.ok ⟨[.ofTool "q" .null], []⟩)
          (.goOn ⟨[.ofTool "p" .null], []⟩)).2.2, deed.breaksDown = false := by
    decide +kernel
  have reliable :
      (steadyCrew (.ok ⟨[.ofTool "q" .null], []⟩)
        (.goOn ⟨[.ofTool "p" .null], []⟩)).Reliable :=
    Rehearsal.Studio.reliable_crew {} 0 "" _ _
  obtain ⟨report, later, head, rounds, -, isNoted, orchestrates⟩ :=
    orchestrates_of_reliable reliable 2 "r" "o" { world := { tree := ContextTree.root {} } }
      nobodyBreaks
  have isReport :
      (steadyRun 2 (.ok ⟨[.ofTool "q" .null], []⟩) (.goOn ⟨[.ofTool "p" .null], []⟩)).1.map
          (fun report => (report.outcome, report.journal.state.iteration)) =
        some (.failed (.iterationLimit 2), 2) := by
    decide +kernel
  have areCarried :
      (steadyRun 2 (.ok ⟨[.ofTool "q" .null], []⟩)
          (.goOn ⟨[.ofTool "p" .null], []⟩)).2.2.filterMap Deed.carried? =
        [⟨[.ofTool "q" .null], []⟩, ⟨[.ofTool "p" .null], []⟩] := by
    decide +kernel
  rw [steadyRun, isNoted] at isReport areCarried
  obtain ⟨isOutcome, isCount⟩ := Prod.mk.inj (Option.some.inj isReport)
  exact ⟨report, rounds, orchestrates, orchestrates.counted.1.trans isCount, isOutcome,
    areCarried⟩

/-- A planner may fail with the fault of the limit, and then no round goes on.  Where the timeout
of batches ends beyond the last instant, a plan comes to no results and the run to no report. -/
theorem limit_of_planner_fault :
    (steadyRun 3 (.error (.iterationLimit 3)) (.complete "")).1.map (·.outcome) =
        some (.failed (.iterationLimit 3)) ∧
      (steadyRun 3 (.error (.iterationLimit 3)) (.complete "")).2.2 =
          [.looked none, .planned "o" [] (.fault (.iterationLimit 3))] ∧
        ((Rehearsal.Studio.crew { batch := { timeout := some (.ofSeconds (2 ^ 64 - 1)) } } 0 ""
            (some [{ result := .ok ⟨[.ofTool "q" .null], []⟩ }]) none).run 3 "r" "o"
          { world := { tree := ContextTree.root {} } }).1 = none := by
  decide +kernel

end Crew

end Runbook
