import Runbook.Proofs.Run.Iterations

namespace Runbook

/-!
# The deeds of an iteration

From what can happen in an iteration it follows how often the planner and the reviewer are
asked and what they see, which plan is carried out, and how the iteration ends.
-/

namespace Crew

namespace Deed

/-- The results that a deed adds. -/
def results : Deed → List Call
  | carriedOut _ (.calls calls) => calls
  | _ => []

/-- The plan that is carried out. -/
def carried? : Deed → Option Plan
  | carriedOut plan _ => some plan
  | _ => none

def isPlanning : Deed → Bool
  | planned _ _ _ => true
  | _ => false

def isReview : Deed → Bool
  | reviewed _ _ _ => true
  | _ => false

/-- The results that a review sees. -/
def seen? : Deed → Option (List Call)
  | reviewed _ seen _ => some seen
  | _ => none

/-- The planner or the reviewer itself ends with a fault. -/
def FailsWith (fault : Fault) : Deed → Prop
  | planned _ _ ending => ending = .fault fault
  | reviewed _ _ outcome => outcome.ending = .fault fault
  | _ => False

/-- A context ends with a fault of contexts, and a batch is refused only for a cycle. -/
def Reliable : Deed → Prop
  | looked ended => ∀ fault, ended = some fault → fault.endsContext = true
  | carriedOut _ carried =>
      ∀ fault, carried = .refused fault → ∃ name, fault = .cyclicDependency name
  | _ => True

/-- The planner, a batch or the reviewer breaks down. -/
def breaksDown : Deed → Bool
  | looked _ => false
  | planned _ _ ending => ending = .brokeDown
  | carriedOut _ carried => carried = .brokeDown
  | reviewed _ _ outcome => outcome.ending = .brokeDown

end Deed

/-- A round whose review goes on with a plan, and whose context has not ended then. -/
def ContinuesWith (plan : Plan) (round : List Deed) : Prop :=
  ∃ earlier objective seen told,
    round = earlier ++ [.reviewed objective seen ⟨.value (.goOn plan), told⟩, .looked none] ∧
      plan.isEmpty = false

section Iterations

variable {objective : String} {results later : List Call} {pending : Option Plan}
  {deeds : List Deed}

theorem Chooses.opens
    {choice : Next (Plan × PlanSource)}
    (chooses : Chooses objective results pending deeds choice) :
    deeds.flatMap Deed.results = [] ∧ deeds.filterMap Deed.carried? = [] ∧
      deeds.countP Deed.isReview = 0 ∧
        deeds.countP Deed.isPlanning ≤ if pending.isNone then 1 else 0 := by
  cases chooses <;> simp [Deed.results, Deed.carried?, Deed.isReview, Deed.isPlanning]

theorem Performs.body
    {plan : Plan}
    {next : Next Plan}
    (performs : Performs objective results plan deeds next later) :
    later = results ++ deeds.flatMap Deed.results ∧
      deeds.filterMap Deed.carried? = [plan] ∧
        deeds.countP Deed.isReview ≤ 1 ∧ deeds.countP Deed.isPlanning = 0 := by
  cases performs with
  | breaksDown =>
      simp [Deed.results, Deed.carried?, Deed.isReview, Deed.isPlanning]
  | refused fault =>
      simp [Deed.results, Deed.carried?, Deed.isReview, Deed.isPlanning]
  | cutOff calls fault =>
      simp [Deed.results, Deed.carried?, Deed.isReview, Deed.isPlanning]
  | reviewed calls told follows =>
      simp [Deed.results, Deed.carried?, Deed.isReview, Deed.isPlanning]

/-- What an iteration adds to the results is what its plan comes to. -/
theorem Iterates.results_eq
    {next : Next Plan}
    (iterates : Iterates objective results pending deeds next later) :
    later = results ++ deeds.flatMap Deed.results := by
  cases iterates with
  | stops chooses =>
      obtain ⟨noResults, -⟩ := chooses.opens
      rw [noResults, List.append_nil]
  | performs chooses performs =>
      obtain ⟨noResults, -⟩ := chooses.opens
      obtain ⟨isLater, -⟩ := performs.body
      rw [List.flatMap_append, noResults, List.nil_append]
      exact isLater

theorem Iterates.plannings_le
    {next : Next Plan}
    (iterates : Iterates objective results pending deeds next later) :
    deeds.countP Deed.isPlanning ≤ if pending.isNone then 1 else 0 := by
  cases iterates with
  | stops chooses =>
      obtain ⟨-, -, -, plannings⟩ := chooses.opens
      exact plannings
  | performs chooses performs =>
      obtain ⟨-, -, -, plannings⟩ := chooses.opens
      obtain ⟨-, -, -, noPlanning⟩ := performs.body
      rw [List.countP_append, noPlanning]
      exact plannings

theorem Iterates.reviews_le
    {next : Next Plan}
    (iterates : Iterates objective results pending deeds next later) :
    deeds.countP Deed.isReview ≤ 1 := by
  cases iterates with
  | stops chooses =>
      obtain ⟨-, -, noReview, -⟩ := chooses.opens
      rw [noReview]
      exact Nat.zero_le 1
  | performs chooses performs =>
      obtain ⟨-, -, noReview, -⟩ := chooses.opens
      obtain ⟨-, -, oneReview, -⟩ := performs.body
      rw [List.countP_append, noReview, Nat.zero_add]
      exact oneReview

/-- A plan that is pending is the one that is carried out. -/
theorem Iterates.carries
    {plan : Plan}
    {next : Next Plan}
    (iterates : Iterates objective results (some plan) deeds next later) :
    deeds.filterMap Deed.carried? = [plan] := by
  cases iterates with
  | stops chooses =>
      cases chooses
  | performs chooses performs =>
      cases chooses
      obtain ⟨-, isCarried, -⟩ := performs.body
      exact isCarried

theorem Chooses.sees
    {choice : Next (Plan × PlanSource)}
    (chooses : Chooses objective results pending deeds choice) :
    deeds.filterMap Deed.seen? = [] := by
  cases chooses <;> rfl

/-- A review sees every result there is by then; an iteration may end without one. -/
theorem Iterates.sees
    {next : Next Plan}
    (iterates : Iterates objective results pending deeds next later) :
    deeds.filterMap Deed.seen? = [later] ∨
      deeds.filterMap Deed.seen? = [] ∧ ∃ ending, next = .ended ending := by
  cases iterates with
  | stops chooses =>
      exact Or.inr ⟨chooses.sees, _, rfl⟩
  | performs chooses performs =>
      rw [List.filterMap_append, chooses.sees, List.nil_append]
      cases performs with
      | reviewed calls told follows =>
          exact Or.inl rfl
      | _ =>
          exact Or.inr ⟨rfl, _, rfl⟩

/-- An iteration goes on with a plan of its review. -/
theorem Iterates.goesOn
    {plan : Plan}
    (iterates : Iterates objective results pending deeds (.goOn plan) later) :
    ∃ earlier told,
      deeds = earlier ++ [.reviewed objective later ⟨.value (.goOn plan), told⟩] ∧
        plan.isEmpty = false := by
  cases iterates with
  | performs chooses performs =>
      cases performs with
      | reviewed calls told follows =>
          cases follows with
          | goesOn _ isNonempty =>
              exact ⟨_ ++ [_, _], told, by rw [List.append_assoc]; rfl, isNonempty⟩

/-- The last thing that is done in an iteration that ends the run is not a look at a context
that goes on. -/
theorem Iterates.not_continuesWith
    {ending : Ending String}
    (iterates : Iterates objective results pending deeds (.ended ending) later)
    (plan : Plan) :
    ¬ ContinuesWith plan deeds := by
  rintro ⟨earlier, asked, seen, told, isRound, -⟩
  have isLast : deeds.getLast? = some (.looked none) := by
    rw [isRound]
    simp
  cases iterates with
  | stops chooses =>
      cases chooses <;> simp at isLast
  | performs chooses performs =>
      cases performs <;> simp at isLast

/-- An ending is a breakdown only where somebody broke down, and it is the fault of the limit
only where the planner or the reviewer said so. -/
def EndsBy (deeds : List Deed) (ending : Ending String) : Prop :=
  (ending = .brokeDown → ∃ deed ∈ deeds, deed.breaksDown = true) ∧
    ∀ limit, ending = .fault (.iterationLimit limit) ↔
      ∃ deed ∈ deeds, deed.FailsWith (.iterationLimit limit)

theorem ne_limit_of_looked
    {fault : Fault}
    (reliable : (Deed.looked (some fault)).Reliable)
    (limit : Nat) :
    fault ≠ .iterationLimit limit := by
  rintro rfl
  exact Bool.false_ne_true (reliable _ rfl)

theorem Chooses.not_failsWith
    {choice : Plan × PlanSource}
    (chooses : Chooses objective results pending deeds (.goOn choice))
    {deed : Deed}
    (isDone : deed ∈ deeds)
    (fault : Fault) :
    ¬ deed.FailsWith fault := by
  cases chooses with
  | pending plan =>
      cases isDone
  | plans plan isNonempty =>
      rw [List.mem_singleton.mp isDone]
      simp [Deed.FailsWith, Ending.value, Ending.fault]

/-- While a run goes on, neither the planner nor the reviewer has failed. -/
theorem Iterates.not_failsWith
    {plan : Plan}
    (iterates : Iterates objective results pending deeds (.goOn plan) later)
    {deed : Deed}
    (isDone : deed ∈ deeds)
    (fault : Fault) :
    ¬ deed.FailsWith fault := by
  cases iterates with
  | performs chooses performs =>
      rcases List.mem_append.mp isDone with inOpening | inBody
      · exact chooses.not_failsWith inOpening fault
      · cases performs with
        | reviewed calls told follows =>
            cases follows with
            | goesOn _ isNonempty =>
                simp only [List.mem_cons, List.not_mem_nil, or_false] at inBody
                rcases inBody with rfl | rfl | rfl <;>
                  simp [Deed.FailsWith, Ending.value, Ending.fault]

theorem Chooses.endsBy
    {ending : Ending String}
    (chooses : Chooses objective results pending deeds (.ended ending)) :
    EndsBy deeds ending := by
  cases chooses with
  | breaksDown =>
      exact ⟨fun _ => ⟨_, List.mem_cons_self, rfl⟩, fun limit => by
        simp [Deed.FailsWith, Ending.fault]⟩
  | fails fault =>
      exact ⟨nofun, fun limit => by simp [Deed.FailsWith, Ending.fault]⟩
  | empty plan isEmpty =>
      exact ⟨nofun, fun limit => by
        simp [Deed.FailsWith, Ending.fault, Ending.value, Planning.emptyPlan]⟩

theorem Performs.endsBy
    {plan : Plan}
    {ending : Ending String}
    (performs : Performs objective results plan deeds (.ended ending) later)
    (reliable : ∀ deed ∈ deeds, deed.Reliable) :
    EndsBy deeds ending := by
  cases performs with
  | breaksDown =>
      exact ⟨fun _ => ⟨_, List.mem_cons_self, rfl⟩, fun limit => by
        simp [Deed.FailsWith, Ending.fault]⟩
  | refused fault =>
      obtain ⟨name, isCyclic⟩ := reliable (.carriedOut plan (.refused fault)) (by simp) fault rfl
      exact ⟨nofun, fun limit => by simp [Deed.FailsWith, Ending.fault, isCyclic]⟩
  | cutOff calls fault =>
      have notLimit := ne_limit_of_looked (reliable (.looked (some fault)) (by simp))
      exact ⟨nofun, fun limit => by simp [Deed.FailsWith, Ending.fault, notLimit limit]⟩
  | reviewed calls told follows =>
      cases follows with
      | breaksDown =>
          refine ⟨fun _ => ?_, fun limit => by simp [Deed.FailsWith, Ending.fault]⟩
          exact ⟨.reviewed objective (results ++ calls) ⟨.brokeDown, told⟩, by simp, rfl⟩
      | fails fault =>
          exact ⟨nofun, fun limit => by simp [Deed.FailsWith, Ending.fault]⟩
      | completes answer =>
          exact ⟨nofun, fun limit => by simp [Deed.FailsWith, Ending.fault, Ending.value]⟩
      | aborts reason =>
          exact ⟨nofun, fun limit => by simp [Deed.FailsWith, Ending.fault, Ending.value]⟩
      | empty plan isEmpty =>
          exact ⟨nofun, fun limit => by
            simp [Deed.FailsWith, Ending.fault, Ending.value, emptyContinuation]⟩

theorem Iterates.endsBy
    {ending : Ending String}
    (iterates : Iterates objective results pending deeds (.ended ending) later)
    (reliable : ∀ deed ∈ deeds, deed.Reliable) :
    EndsBy deeds ending := by
  cases iterates with
  | stops chooses =>
      exact chooses.endsBy
  | performs chooses performs =>
      obtain ⟨returns, isLimit⟩ := performs.endsBy fun deed isDone =>
        reliable deed (List.mem_append_right _ isDone)
      refine ⟨fun broke => ?_, fun limit => ?_⟩
      · obtain ⟨deed, isDone, breaksDown⟩ := returns broke
        exact ⟨deed, List.mem_append_right _ isDone, breaksDown⟩
      rw [isLimit limit]
      constructor
      · rintro ⟨deed, isDone, fails⟩
        exact ⟨deed, List.mem_append_right _ isDone, fails⟩
      · rintro ⟨deed, isDone, fails⟩
        rcases List.mem_append.mp isDone with inOpening | inBody
        · -- The iteration would not have come to its plan.
          exact absurd fails (chooses.not_failsWith inOpening _)
        · exact ⟨deed, inBody, fails⟩

end Iterations

end Crew

end Runbook
