import Runbook.Proofs.Run.Deeds

namespace Runbook

/-!
# The iterations of a run

A run looks whether its context has ended, iterates, looks again, and so on.  What its crew
did is split into rounds: one for each iteration, with the look that follows it if the run
means to go on.
-/

namespace Crew

variable {σ : Type}

/-- What the rounds of a run do: `left` iterations may still begin, with a plan that may be
pending, the results so far and the look before the first round.  At the end there is the
ending of the run with every result. -/
inductive Runs (limit : Nat) (objective : String) :
    Nat → Option Plan → List Call → Option Fault → List (List Deed) → Ending String →
      List Call → Prop where
  | cutOff {left : Nat} {pending : Option Plan} {results : List Call} (fault : Fault) :
      Runs limit objective left pending results (some fault) [] (.fault fault) results
  | exhausted {pending : Option Plan} {results : List Call} :
      Runs limit objective 0 pending results none [] (.fault (.iterationLimit limit)) results
  | ends {left : Nat} {pending : Option Plan} {results later : List Call}
      {deeds : List Deed} {ending : Ending String}
      (iterates : Iterates objective results pending deeds (.ended ending) later) :
      Runs limit objective (left + 1) pending results none [deeds] ending later
  | goesOn {left : Nat} {pending : Option Plan} {results middle later : List Call}
      {deeds : List Deed} {plan : Plan} {head : Option Fault} {rounds : List (List Deed)}
      {ending : Ending String}
      (iterates : Iterates objective results pending deeds (.goOn plan) middle)
      (runs : Runs limit objective left (some plan) middle head rounds ending later) :
      Runs limit objective (left + 1) pending results none
        ((deeds ++ [.looked head]) :: rounds) ending later

/-- A run does this, and writing it down changes nothing. -/
theorem carryOn_noted
    (crew : Crew σ)
    (limit left : Nat)
    (pending : Option Plan)
    (journal : Journal)
    (mayPlan : journal.state.phase = .planning ∨ journal.state.phase = .replanning)
    (state : σ)
    (log : List Deed) :
    ∃ head rounds,
      crew.noted.carryOn limit left pending journal (state, log) =
          ((crew.carryOn limit left pending journal state).1,
            (crew.carryOn limit left pending journal state).2.1,
            (crew.carryOn limit left pending journal state).2.2,
            log ++ .looked head :: rounds.flatten) ∧
        (crew.carryOn limit left pending journal state).2.1.state.iteration =
            journal.state.iteration + rounds.length ∧
          Runs limit journal.state.objective left pending journal.state.results head rounds
            (crew.carryOn limit left pending journal state).1
            (crew.carryOn limit left pending journal state).2.1.state.results := by
  induction left generalizing pending journal state log with
  | zero =>
      cases isLooked : crew.look state with
      | mk ended looked =>
          refine ⟨ended, [], ?_⟩
          cases ended with
          | some fault =>
              simp only [carryOn, look_noted, isLooked]
              exact ⟨rfl, rfl, .cutOff fault⟩
          | none =>
              simp only [carryOn, look_noted, isLooked]
              exact ⟨rfl, rfl, .exhausted⟩
  | succ left inductionHypothesis =>
      cases isLooked : crew.look state with
      | mk ended looked =>
          cases ended with
          | some fault =>
              refine ⟨some fault, [], ?_⟩
              simp only [carryOn, look_noted, isLooked]
              exact ⟨rfl, rfl, .cutOff fault⟩
          | none =>
              obtain ⟨deeds, middle, isIterated, leaves, iterates⟩ :=
                iterate_noted crew pending mayPlan looked (log ++ [.looked none])
              cases iterated : crew.iterate pending journal looked with
              | mk next rest =>
                  obtain ⟨between, iteratedState⟩ := rest
                  rw [iterated] at isIterated leaves iterates
                  dsimp only at isIterated leaves iterates
                  cases next with
                  | ended ending =>
                      refine ⟨none, [deeds], ?_⟩
                      simp only [carryOn, look_noted, isLooked, iterated, isIterated]
                      refine ⟨by simp, by rw [leaves.state]; rfl, ?_⟩
                      rw [show between.state.results = middle by rw [leaves.state]]
                      exact .ends iterates
                  | goOn plan =>
                      -- The rest of the run begins with the look that ends this round.
                      obtain ⟨head, rounds, isRun, isCounted, runs⟩ :=
                        inductionHypothesis (some plan) between (Or.inr (leaves.phase plan rfl))
                          iteratedState (log ++ [.looked none] ++ deeds)
                      have sameObjective :
                          between.state.objective = journal.state.objective := by
                        rw [leaves.state]
                        rfl
                      have sameResults : between.state.results = middle := by
                        rw [leaves.state]
                      have nextCount :
                          between.state.iteration = journal.state.iteration + 1 := by
                        rw [leaves.state]
                        rfl
                      rw [sameObjective, sameResults] at runs
                      refine ⟨none, (deeds ++ [.looked head]) :: rounds, ?_⟩
                      simp only [carryOn, look_noted, isLooked, iterated, isIterated, isRun]
                      refine ⟨by simp, ?_, .goesOn iterates runs⟩
                      rw [isCounted, nextCount, List.length_cons]
                      omega

section Rounds

variable {limit : Nat} {objective : String} {left : Nat} {pending : Option Plan}
  {results later : List Call} {head : Option Fault} {rounds : List (List Deed)}
  {ending : Ending String}

theorem Runs.length_le
    (runs : Runs limit objective left pending results head rounds ending later) :
    rounds.length ≤ left := by
  induction runs with
  | cutOff fault =>
      exact Nat.zero_le _
  | exhausted =>
      exact Nat.zero_le _
  | ends iterates =>
      exact Nat.succ_le_succ (Nat.zero_le _)
  | goesOn iterates runs inductionHypothesis =>
      exact Nat.succ_le_succ inductionHypothesis

/-- A run collects what its plans come to, in order. -/
theorem Runs.results_eq
    (runs : Runs limit objective left pending results head rounds ending later) :
    later = results ++ rounds.flatten.flatMap Deed.results := by
  induction runs with
  | cutOff fault =>
      simp
  | exhausted =>
      simp
  | ends iterates =>
      rw [List.flatten_singleton]
      exact iterates.results_eq
  | goesOn iterates runs inductionHypothesis =>
      rw [inductionHypothesis, iterates.results_eq]
      simp [Deed.results]

/-- With a plan that is pending the planner is not asked, and without one only in the first
round. -/
theorem Runs.plannings_le
    (runs : Runs limit objective left pending results head rounds ending later) :
    rounds.flatten.countP Deed.isPlanning ≤ (if pending.isNone then 1 else 0) ∧
      rounds.tail.flatten.countP Deed.isPlanning = 0 := by
  induction runs with
  | cutOff fault =>
      simp
  | exhausted =>
      simp
  | ends iterates =>
      rw [List.flatten_singleton]
      exact ⟨iterates.plannings_le, rfl⟩
  | goesOn iterates runs inductionHypothesis =>
      -- The rest of the run has a plan pending.
      have notAsked := Nat.le_zero.mp inductionHypothesis.1
      refine ⟨?_, notAsked⟩
      rw [List.flatten_cons, List.countP_append, notAsked, List.countP_append]
      exact iterates.plannings_le

theorem Runs.reviews_le
    (runs : Runs limit objective left pending results head rounds ending later)
    {round : List Deed}
    (isRound : round ∈ rounds) :
    round.countP Deed.isReview ≤ 1 := by
  induction runs with
  | cutOff fault =>
      cases isRound
  | exhausted =>
      cases isRound
  | ends iterates =>
      rw [List.mem_singleton.mp isRound]
      exact iterates.reviews_le
  | goesOn iterates runs inductionHypothesis =>
      rcases List.mem_cons.mp isRound with rfl | inRest
      · rw [List.countP_append]
        exact iterates.reviews_le
      · exact inductionHypothesis inRest

/-- The reviews of a run see, one after the other, what all plans up to then came to. -/
theorem Runs.sees
    (runs : Runs limit objective left pending results head rounds ending later)
    {count : Nat}
    {seen : List Call}
    (isSeen : (rounds.flatten.filterMap Deed.seen?)[count]? = some seen) :
    seen = results ++ (rounds.take (count + 1)).flatten.flatMap Deed.results := by
  induction runs generalizing count with
  | cutOff fault =>
      simp at isSeen
  | exhausted =>
      simp at isSeen
  | ends iterates =>
      rw [List.flatten_singleton] at isSeen
      rcases iterates.sees with isLater | ⟨isNil, -⟩
      · rw [isLater] at isSeen
        cases count with
        | zero =>
            cases isSeen
            simpa using iterates.results_eq
        | succ count =>
            cases isSeen
      · rw [isNil] at isSeen
        cases isSeen
  | goesOn iterates runs inductionHypothesis =>
      have isMiddle := iterates.sees.resolve_right nofun
      rw [List.flatten_cons, List.filterMap_append, List.filterMap_append, isMiddle] at isSeen
      cases count with
      | zero =>
          cases isSeen
          simpa [Deed.results] using iterates.results_eq
      | succ count =>
          rw [inductionHypothesis isSeen, iterates.results_eq]
          simp [Deed.results]

/-- A round after a look finds that the context has not ended, and carries out the plan that
is pending. -/
theorem Runs.first
    {plan : Plan}
    (runs : Runs limit objective left (some plan) results head rounds ending later)
    {next : List Deed}
    (isFirst : rounds[0]? = some next) :
    head = none ∧ next.filterMap Deed.carried? = [plan] := by
  cases runs with
  | cutOff fault =>
      cases isFirst
  | exhausted =>
      cases isFirst
  | ends iterates =>
      cases isFirst
      exact ⟨rfl, iterates.carries⟩
  | goesOn iterates runs =>
      cases isFirst
      refine ⟨rfl, ?_⟩
      rw [List.filterMap_append, iterates.carries]
      rfl

/-- An iteration that means to go on does so if its context has not ended. -/
theorem Iterates.continuesWith
    {middle : List Call}
    {deeds : List Deed}
    {plan : Plan}
    (iterates : Iterates objective results pending deeds (.goOn plan) middle) :
    ContinuesWith plan (deeds ++ [.looked none]) := by
  obtain ⟨earlier, told, isRound, isNonempty⟩ := iterates.goesOn
  refine ⟨earlier, objective, middle, told, ?_, isNonempty⟩
  rw [isRound, List.append_assoc]
  rfl

theorem Runs.head_eq_none
    (runs : Runs limit objective left pending results head rounds ending later)
    (isNonempty : rounds ≠ []) :
    head = none := by
  cases runs with
  | cutOff fault =>
      exact absurd rfl isNonempty
  | _ =>
      rfl

theorem eq_none_of_continuesWith
    {deeds : List Deed}
    {plan : Plan}
    (continuesWith : ContinuesWith plan (deeds ++ [.looked head])) :
    head = none := by
  obtain ⟨earlier, asked, seen, told, isRound, -⟩ := continuesWith
  have sameLast := congrArg List.getLast? isRound
  simpa using sameLast

/-- A round with another one after it goes on with the plan that is carried out next. -/
theorem Runs.continues
    (runs : Runs limit objective left pending results head rounds ending later)
    {count : Nat}
    {round next : List Deed}
    (isRound : rounds[count]? = some round)
    (isNext : rounds[count + 1]? = some next) :
    ∃ plan, ContinuesWith plan round ∧ next.filterMap Deed.carried? = [plan] := by
  induction runs generalizing count with
  | cutOff fault =>
      simp at isRound
  | exhausted =>
      simp at isRound
  | ends iterates =>
      simp at isNext
  | goesOn iterates runs inductionHypothesis =>
      cases count with
      | zero =>
          cases isRound
          obtain ⟨goesOn, carries⟩ := runs.first isNext
          rw [goesOn]
          exact ⟨_, iterates.continuesWith, carries⟩
      | succ count =>
          exact inductionHypothesis isRound isNext

/-- A run ends with the fault of the limit exactly if every iteration it may take goes on, or the
planner or the reviewer says so; and it breaks down only if somebody does. -/
theorem Runs.endsBy
    (runs : Runs limit objective left pending results head rounds ending later)
    (reliable : ∀ deed ∈ .looked head :: rounds.flatten, deed.Reliable) :
    (ending = .brokeDown → ∃ deed ∈ rounds.flatten, deed.breaksDown = true) ∧
      ∀ other, ending = .fault (.iterationLimit other) ↔
        (other = limit ∧ head = none ∧ rounds.length = left ∧
            ∀ round ∈ rounds, ∃ plan, ContinuesWith plan round) ∨
          ∃ deed ∈ rounds.flatten, deed.FailsWith (.iterationLimit other) := by
  induction runs with
  | cutOff fault =>
      have notLimit := ne_limit_of_looked (reliable _ List.mem_cons_self)
      exact ⟨by rintro ⟨⟩, fun other => by simp [Ending.fault, notLimit other]⟩
  | exhausted =>
      exact ⟨by rintro ⟨⟩, fun other => by simp [Ending.fault, eq_comm]⟩
  | ends iterates =>
      rw [List.flatten_singleton] at reliable ⊢
      obtain ⟨returns, isLimit⟩ := iterates.endsBy fun deed isDone =>
        reliable deed (List.mem_cons_of_mem _ isDone)
      refine ⟨returns, fun other => ?_⟩
      rw [isLimit other]
      constructor
      · exact Or.inr
      · rintro (⟨_, _, _, continues⟩ | fails)
        · obtain ⟨plan, continuesWith⟩ := continues _ List.mem_cons_self
          exact absurd continuesWith (iterates.not_continuesWith plan)
        · exact fails
  | goesOn iterates runs inductionHypothesis =>
      obtain ⟨returns, isLimit⟩ := inductionHypothesis fun deed isDone =>
        reliable deed (by
          rw [List.flatten_cons, List.append_assoc]
          exact List.mem_cons_of_mem _ (List.mem_append_right _ isDone))
      refine ⟨fun broke => ?_, fun other => ?_⟩
      · obtain ⟨deed, isDone, breaksDown⟩ := returns broke
        exact ⟨deed, List.mem_append_right _ isDone, breaksDown⟩
      rw [isLimit other]
      constructor
      · rintro (⟨isThis, goesOn, isLast, continues⟩ | ⟨deed, isDone, fails⟩)
        · refine Or.inl ⟨isThis, rfl, congrArg (· + 1) isLast, ?_⟩
          rw [goesOn]
          exact List.forall_mem_cons.mpr ⟨⟨_, iterates.continuesWith⟩, continues⟩
        · exact Or.inr ⟨deed, List.mem_append_right _ isDone, fails⟩
      · rintro (⟨isThis, _, isLast, continues⟩ | ⟨deed, isDone, fails⟩)
        · obtain ⟨⟨plan, continuesWith⟩, restContinues⟩ := List.forall_mem_cons.mp continues
          exact Or.inl ⟨isThis, eq_none_of_continuesWith continuesWith,
            Nat.succ.inj isLast, restContinues⟩
        · refine Or.inr ⟨deed, ?_, fails⟩
          rcases List.mem_append.mp isDone with inRound | inRest
          · rcases List.mem_append.mp inRound with isIterated | isLooked
            · exact absurd fails (iterates.not_failsWith isIterated _)
            · rw [List.mem_singleton.mp isLooked] at fails
              cases fails
          · exact inRest

end Rounds

end Crew

end Runbook
