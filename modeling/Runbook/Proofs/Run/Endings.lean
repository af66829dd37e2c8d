import Runbook.Proofs.Run.Orchestration

namespace Runbook

/-!
# What ends a run

A run ends at its limit, or by the last thing that its crew did.  The results of a plan are
never what ends it: unless the context ends first, the reviewer sees them.
-/

namespace Crew

/-- The deeds that end a run, and how it ends then. -/
inductive Deed.Ends : Deed → Ending String → Prop where
  | cutOff (fault : Fault) :
      Ends (.looked (some fault)) (.fault fault)
  | unplanned {objective : String} {seen : List Call} (fault : Fault) :
      Ends (.planned objective seen (.fault fault)) (.fault fault)
  | plannerBroke {objective : String} {seen : List Call} :
      Ends (.planned objective seen .brokeDown) .brokeDown
  | emptyPlan {objective : String} {seen : List Call} {plan : Plan}
      (isEmpty : plan.isEmpty = true) :
      Ends (.planned objective seen (.value plan)) (.fault Planning.emptyPlan)
  | refused {plan : Plan} (fault : Fault) :
      Ends (.carriedOut plan (.refused fault)) (.fault fault)
  | planBroke {plan : Plan} :
      Ends (.carriedOut plan .brokeDown) .brokeDown
  | reviewed {objective : String} {seen : List Call} {outcome : Ending Decision}
      {told : List String} {ending : Ending String}
      (follows : Follows outcome (.ended ending)) :
      Ends (.reviewed objective seen ⟨outcome, told⟩) ending

/-- What is done once a plan has come to results: the reviewer is called with them, unless the
context has ended. -/
inductive Resumes (calls : List Call) : List Deed → Prop where
  | cutOff (fault : Fault) :
      Resumes calls [.looked (some fault)]
  | reviewed (objective : String) (earlier : List Call) (reviewed : Reviewed)
      (rest : List Deed) :
      Resumes calls (.looked none :: .reviewed objective (earlier ++ calls) reviewed :: rest)

section

variable {objective : String} {results later : List Call} {pending : Option Plan}
  {deeds : List Deed} {ending : Ending String}

theorem Chooses.ends
    (chooses : Chooses objective results pending deeds (.ended ending)) :
    ∃ earlier deed, deeds = earlier ++ [deed] ∧ deed.Ends ending := by
  cases chooses with
  | breaksDown =>
      exact ⟨[], _, rfl, .plannerBroke⟩
  | fails fault =>
      exact ⟨[], _, rfl, .unplanned fault⟩
  | empty plan isEmpty =>
      exact ⟨[], _, rfl, .emptyPlan isEmpty⟩

theorem Performs.ends
    {plan : Plan}
    (performs : Performs objective results plan deeds (.ended ending) later) :
    ∃ earlier deed, deeds = earlier ++ [deed] ∧ deed.Ends ending := by
  cases performs with
  | breaksDown =>
      exact ⟨[], _, rfl, .planBroke⟩
  | refused fault =>
      exact ⟨[], _, rfl, .refused fault⟩
  | cutOff calls fault =>
      exact ⟨[.carriedOut plan (.calls calls)], _, rfl, .cutOff fault⟩
  | reviewed calls told follows =>
      exact ⟨[.carriedOut plan (.calls calls), .looked none], _, rfl, .reviewed follows⟩

/-- An iteration that ends the run does so by the last thing that is done in it. -/
theorem Iterates.ends
    (iterates : Iterates objective results pending deeds (.ended ending) later) :
    ∃ earlier deed, deeds = earlier ++ [deed] ∧ deed.Ends ending := by
  cases iterates with
  | stops chooses =>
      exact chooses.ends
  | @performs opening body plan source next later chooses performs =>
      obtain ⟨earlier, deed, isBody, ends⟩ := performs.ends
      exact ⟨opening ++ earlier, deed, by rw [isBody, List.append_assoc], ends⟩

/-- Nothing is carried out before a plan is chosen. -/
theorem Chooses.not_carriedOut
    {choice : Next (Plan × PlanSource)}
    (chooses : Chooses objective results pending deeds choice)
    {plan : Plan}
    {carried : Carried} :
    .carriedOut plan carried ∉ deeds := by
  cases chooses <;> simp

/-- After an iteration comes nothing if it has ended the run, and else the next look. -/
theorem Performs.resumes
    {plan other : Plan}
    {next : Next Plan}
    {calls : List Call}
    {rest after : List Deed}
    (performs : Performs objective results plan deeds next later)
    (isOver : ∀ ending, next = .ended ending → after = [])
    (follows : .carriedOut other (.calls calls) :: rest <:+ deeds ++ after) :
    Resumes calls rest ∨ .carriedOut other (.calls calls) :: rest <:+ after := by
  cases performs with
  | breaksDown =>
      rw [isOver _ rfl] at follows
      simp [List.suffix_cons_iff] at follows
  | refused fault =>
      rw [isOver _ rfl] at follows
      simp [List.suffix_cons_iff] at follows
  | cutOff added fault =>
      rw [isOver _ rfl] at follows
      simp only [List.append_nil, List.suffix_cons_iff, List.cons.injEq, reduceCtorEq,
        false_and, List.suffix_nil, or_false, Deed.carriedOut.injEq, Carried.calls.injEq]
        at follows
      rw [follows.1.2, follows.2]
      exact Or.inl (.cutOff fault)
  | reviewed added told ends =>
      simp only [List.cons_append, List.nil_append, List.suffix_cons_iff, List.cons.injEq,
        reduceCtorEq, false_and, false_or, Deed.carriedOut.injEq, Carried.calls.injEq]
        at follows
      rcases follows with ⟨⟨-, sameCalls⟩, isRest⟩ | inRest
      · rw [sameCalls, isRest]
        exact Or.inl (.reviewed objective results _ after)
      · exact Or.inr inRest

theorem Iterates.resumes
    {other : Plan}
    {next : Next Plan}
    {calls : List Call}
    {rest after : List Deed}
    (iterates : Iterates objective results pending deeds next later)
    (isOver : ∀ ending, next = .ended ending → after = [])
    (follows : .carriedOut other (.calls calls) :: rest <:+ deeds ++ after) :
    Resumes calls rest ∨ .carriedOut other (.calls calls) :: rest <:+ after := by
  cases iterates with
  | stops chooses =>
      rw [isOver _ rfl, List.append_nil] at follows
      exact absurd (follows.subset List.mem_cons_self) chooses.not_carriedOut
  | @performs opening body plan source next later chooses performs =>
      rw [List.append_assoc] at follows
      exact performs.resumes isOver (History.suffix_of_not_mem chooses.not_carriedOut follows)

end

section

variable {limit : Nat} {objective : String} {left : Nat} {pending : Option Plan}
  {results later : List Call} {head : Option Fault} {rounds : List (List Deed)}
  {ending : Ending String}

/-- A run ends by the last thing that was done, or at its limit. -/
theorem Runs.ends_last
    (runs : Runs limit objective left pending results head rounds ending later) :
    (∃ earlier deed, .looked head :: rounds.flatten = earlier ++ [deed] ∧ deed.Ends ending) ∨
      ending = .fault (.iterationLimit limit) := by
  induction runs with
  | cutOff fault =>
      exact Or.inl ⟨[], _, rfl, .cutOff fault⟩
  | exhausted =>
      exact Or.inr rfl
  | ends iterates =>
      obtain ⟨earlier, deed, isLast, ends⟩ := iterates.ends
      refine Or.inl ⟨.looked none :: earlier, deed, ?_, ends⟩
      rw [List.flatten_singleton, isLast, List.cons_append]
  | @goesOn left pending results middle later deeds plan head rounds ending iterates runs
      inductionHypothesis =>
      refine inductionHypothesis.imp_left ?_
      rintro ⟨earlier, deed, isLast, ends⟩
      refine ⟨.looked none :: (deeds ++ earlier), deed, ?_, ends⟩
      rw [List.flatten_cons, List.append_assoc, List.singleton_append, isLast,
        List.cons_append, List.append_assoc]

/-- Once a plan has come to results the run goes on with them, whatever they are. -/
theorem Runs.resumes
    (runs : Runs limit objective left pending results head rounds ending later)
    {plan : Plan}
    {calls : List Call}
    {rest : List Deed}
    (follows : .carriedOut plan (.calls calls) :: rest <:+ .looked head :: rounds.flatten) :
    Resumes calls rest := by
  have notLooked (ended : Option Fault) :
      Deed.carriedOut plan (.calls calls) ∉ [.looked ended] := by
    simp
  induction runs with
  | cutOff fault =>
      exact absurd (follows.subset List.mem_cons_self) (notLooked _)
  | exhausted =>
      exact absurd (follows.subset List.mem_cons_self) (notLooked _)
  | @ends left pending results later deeds ending iterates =>
      have inRound : .carriedOut plan (.calls calls) :: rest <:+ deeds ++ [] :=
        History.suffix_of_not_mem (notLooked none) follows
      rcases iterates.resumes (fun _ _ => rfl) inRound with resumes | inNothing
      · exact resumes
      · exact absurd (inNothing.subset List.mem_cons_self) List.not_mem_nil
  | @goesOn left pending results middle later deeds next head rounds ending iterates runs
      inductionHypothesis =>
      have inRounds :
          .carriedOut plan (.calls calls) :: rest <:+
            deeds ++ .looked head :: rounds.flatten := by
        refine History.suffix_of_not_mem (notLooked none) ?_
        rwa [List.flatten_cons, List.append_assoc] at follows
      rcases iterates.resumes nofun inRounds with resumes | inRest
      · exact resumes
      · exact inductionHypothesis inRest

end

/-- How a run comes to its end, by its report and what its crew did. -/
structure Concludes (report? : Option Report) (deeds : List Deed) : Prop where
  /-- There is a report, unless somebody broke down. -/
  reports : report? = none → ∃ deed ∈ deeds, deed.Ends .brokeDown
  /-- The run fails at its limit, or with a fault that it was given. -/
  given : ∀ report fault, report? = some report → report.outcome = .failed fault →
    (∃ limit, fault = .iterationLimit limit) ∨ ∃ deed ∈ deeds, deed.Ends (.fault fault)
  /-- Results never end the run: unless the context ends, the reviewer sees them. -/
  resumes : ∀ plan calls rest, .carriedOut plan (.calls calls) :: rest <:+ deeds →
    Resumes calls rest
  /-- The report has what the plans came to, with the faults of the calls. -/
  results : ∀ report, report? = some report →
    report.journal.state.results = deeds.flatMap Deed.results

theorem concludes_run
    {σ : Type}
    (crew : Crew σ)
    (limit : Nat)
    (runId objective : String)
    (state : σ) :
    ∃ report? later deeds,
      crew.run limit runId objective state = (report?, later) ∧
        crew.noted.run limit runId objective (state, []) = (report?, later, deeds) ∧
          Concludes report? deeds := by
  obtain ⟨head, rounds, isNoted, -, runs⟩ :=
    carryOn_noted crew (iterations limit) (iterations limit) none (.start runId objective)
      (Or.inl rfl) state []
  cases isRun :
      crew.carryOn (iterations limit) (iterations limit) none (.start runId objective) state with
  | mk ending rest =>
      obtain ⟨journal, later⟩ := rest
      rw [isRun] at isNoted runs
      dsimp only at isNoted runs
      have isGiven :
          (∃ deed ∈ .looked head :: rounds.flatten, deed.Ends ending) ∨
            ending = .fault (.iterationLimit (iterations limit)) := by
        refine runs.ends_last.imp_left ?_
        rintro ⟨earlier, deed, isLast, ends⟩
        exact ⟨deed, by rw [isLast]; simp, ends⟩
      cases ending with
      | brokeDown =>
          have noLimit :
              (.brokeDown : Ending String) ≠ .fault (.iterationLimit (iterations limit)) := by
            simp [Ending.fault]
          have noReport (report : Report) : (none : Option Report) ≠ some report :=
            (Option.some_ne_none report).symm
          refine ⟨none, later, .looked head :: rounds.flatten, by simp only [run, isRun],
            by simp only [run, isNoted, List.nil_append], ?_⟩
          exact ⟨fun _ => isGiven.resolve_right noLimit,
            fun report _ isReport _ => absurd isReport (noReport report),
            fun plan calls rest => runs.resumes,
            fun report isReport => absurd isReport (noReport report)⟩
      | finished result =>
          refine ⟨some (.of result journal), later, .looked head :: rounds.flatten,
            by simp only [run, isRun], by simp only [run, isNoted, List.nil_append],
            fun isNone => absurd isNone (Option.some_ne_none _), ?_,
            fun plan calls rest => runs.resumes, ?_⟩
          · intro report fault isReport isFailed
            cases isReport
            rw [(Report.outcome_of result journal fault).mp isFailed] at isGiven
            refine isGiven.symm.imp_left fun isLimit => ?_
            cases isLimit
            exact ⟨_, rfl⟩
          · intro report isReport
            cases isReport
            rw [(Report.state_of result journal).1]
            exact runs.results_eq

end Crew

end Runbook
