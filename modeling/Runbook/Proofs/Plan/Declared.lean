import Runbook.Proofs.Batch.Schedule
import Runbook.Proofs.Plan.StepIds

namespace Runbook

/-!
# What steps declare

The dependencies of a plan are those that its steps declare, under the ids that their calls
got.  A step is meant by the id that it was given; its call goes by that id if the id has no
blanks around it and no step before was named like it by its tool.  Then whoever declares the
id waits for the call.  Otherwise the declaration names no such call, and nobody waits for it.
-/

namespace Plan

open Dependency

section Declared

variable {steps : List Step} {plan : Plan} {id dependency : String}

/-- Joining dependencies lists them beside what was listed before. -/
theorem listed_joinDependencies
    {joined : String}
    {more : List String}
    {table : List (String × List String)} :
    Listed (joinDependencies joined more table) id dependency ↔
      (id = joined ∧ dependency ∈ more) ∨ Listed table id dependency := by
  induction table with
  | nil =>
      rw [joinDependencies, listed_cons]
      simp [mem_addNew]
  | cons entry rest inductionHypothesis =>
      rw [joinDependencies]
      split
      case isTrue same =>
        rw [listed_cons, listed_cons, mem_addNew, same]
        tauto
      case isFalse =>
        rw [listed_cons, listed_cons, inductionHypothesis]
        exact or_left_comm

/-- Declaring lists what is declared beside what was listed before. -/
theorem listed_declare
    {plan : Plan}
    {entry : Call × List String} :
    Listed (plan.declare entry).dependencies id dependency ↔
      (entry.1.id = id ∧ dependency ∈ entry.2) ∨ Listed plan.dependencies id dependency := by
  rw [declare]
  split
  case isTrue isEmpty =>
    simp [List.isEmpty_iff.mp isEmpty]
  case isFalse =>
    rw [withDependency, listed_joinDependencies, eq_comm]

/-- So does declaring for many calls. -/
theorem listed_foldl_declare
    {calls : List (Call × List String)}
    {plan : Plan} :
    Listed (calls.foldl declare plan).dependencies id dependency ↔
      (∃ entry ∈ calls, entry.1.id = id ∧ dependency ∈ entry.2) ∨
        Listed plan.dependencies id dependency := by
  induction calls generalizing plan with
  | nil =>
      simp
  | cons entry rest inductionHypothesis =>
      rw [List.foldl_cons, inductionHypothesis, listed_declare, List.exists_mem_cons_iff]
      exact or_left_comm.trans or_assoc.symm

/-- A plan lists what a step with a call of that id declares, and nothing else. -/
theorem listed_iff_of_ofSteps
    (made : ofSteps steps = .ok plan) :
    Listed plan.dependencies id dependency ↔
      ∃ (index : Nat) (step : Step) (call : Call),
        steps[index]? = some step ∧ plan.steps[index]? = some call ∧
          call.id = id ∧ dependency ∈ step.dependsOn := by
  have isStep := getElem?_steps_of_ofSteps made
  obtain ⟨calls, isCalls, rfl⟩ := exists_callsOf_of_ofSteps made
  rw [listed_foldl_declare]
  simp only [not_listed_nil, or_false]
  constructor
  · rintro ⟨entry, isEntry, isId, declared⟩
    obtain ⟨index, atIndex⟩ := List.mem_iff_getElem?.mp isEntry
    have isMade := getElem?_callsOf isCalls index
    rw [atIndex] at isMade
    obtain ⟨step, found, rfl⟩ := Option.map_eq_some_iff.mp isMade.symm
    refine ⟨index, step, _, found, ?_, isId, declared⟩
    rw [isStep index, found]
    rfl
  · rintro ⟨index, step, call, found, isCall, isId, declared⟩
    have isMade := getElem?_callsOf isCalls index
    rw [found] at isMade
    rw [isStep index, found] at isCall
    cases isCall
    exact ⟨_, List.mem_of_getElem? isMade, isId, declared⟩

end Declared

section Given

variable {steps : List Step} {plan : Plan} {id : String}

/-- The characters behind the name in a numbered id are no blanks. -/
theorem not_isBlank_of_mem_number
    {number : Nat}
    {c : Char}
    (member : c ∈ '#' :: Nat.toDigits 10 number) :
    Text.isBlank c = false := by
  rcases List.mem_cons.mp member with rfl | isDigit
  · decide
  · have digit := Nat.isDigit_of_mem_toDigits (by decide) (by decide) isDigit
    have atLeast : 48 ≤ c.toNat := (Char.isDigit_iff_toNat.mp digit).1
    have atMost : c.toNat ≤ 57 := (Char.isDigit_iff_toNat.mp digit).2
    simp only [Text.isBlank, Bool.or_eq_false_iff, Bool.and_eq_false_iff, decide_eq_false_iff_not,
      beq_eq_false_iff_ne]
    omega

/-- An id is that of its step's call only if the call has no number. -/
theorem numberedId_trimmed_eq_iff
    (notBlank : Text.allBlank id = false)
    {earlier : Nat} :
    numberedId (Text.trimmed id) earlier = id ↔ Text.trimmed id = id ∧ earlier = 0 := by
  constructor
  · intro same
    by_cases number : earlier = 0
    · rw [number, numberedId_zero] at same
      exact ⟨same, number⟩
    · -- Name and number have no blanks around them, so the name would be all of the id.
      let digits := Nat.toDigits 10 (earlier + 1)
      have isText : Text.trim id.toList ++ '#' :: digits = id.toList := by
        have sameCharacters := congrArg String.toList same
        rwa [toList_numberedId number, Text.trimmed, String.toList_ofList] at sameCharacters
      have someLeft : Text.trim id.toList ≠ [] := by
        rw [ne_eq, Text.trim_eq_nil_iff]
        exact Bool.eq_false_iff.mp notBlank
      have ends : Text.HasEnds id.toList :=
        isText ▸ (Text.hasEnds_trim someLeft).append fun _ => not_isBlank_of_mem_number
      have sameLength := congrArg List.length isText
      rw [Text.trim_eq_self ends] at sameLength
      simp at sameLength
  · rintro ⟨same, rfl⟩
    rw [numberedId_zero, same]

/-- The ids that steps are given are not blank, and distinct without the blanks around them. -/
structure WellNamed (steps : List Step) : Prop where
  given :
    ∀ step ∈ steps, ∀ id ∈ step.id, Text.allBlank id = false
  distinct :
    ((steps.filterMap (·.id)).map Text.trimmed).Nodup

/-- The id given to a step is that of its call: it has no blanks around it, and no step before
goes by it as the name of its tool. -/
def Keeps (steps : List Step) (index : Nat) (id : String) : Prop :=
  Text.trimmed id = id ∧ ∀ step ∈ steps.take index, step.id = none → step.toolName ≠ id

/-- A step with an id that is not blank starts from that id. -/
theorem baseName_of_given
    {step : Step}
    (isGiven : step.id = some id)
    (notBlank : Text.allBlank id = false) :
    step.baseName = Text.trimmed id := by
  simp [Step.baseName, isGiven, notBlank]

/-- No step before a well-named one was given its id. -/
theorem WellNamed.trimmed_ne
    (named : WellNamed steps)
    {index : Nat}
    {step earlier : Step}
    {earlierId : String}
    (isStep : steps[index]? = some step)
    (isGiven : step.id = some id)
    (isEarlier : earlier ∈ steps.take index)
    (isEarlierId : earlier.id = some earlierId) :
    Text.trimmed earlierId ≠ Text.trimmed id := by
  have isLater : step ∈ steps.drop index := by
    have isFirst : (steps.drop index)[0]? = some step := by
      rwa [List.getElem?_drop, Nat.add_zero]
    exact List.mem_of_getElem? isFirst
  have nodup := named.distinct
  rw [← List.take_append_drop index steps, List.filterMap_append, List.map_append] at nodup
  have disjoint := List.disjoint_of_nodup_append nodup
  intro same
  exact disjoint
    (List.mem_map.mpr ⟨earlierId, List.mem_filterMap.mpr ⟨earlier, isEarlier, isEarlierId⟩, rfl⟩)
    (List.mem_map.mpr ⟨id, List.mem_filterMap.mpr ⟨step, isLater, isGiven⟩, same.symm⟩)

/-- The call of a well-named step goes by the id that the step was given exactly if the id is
kept. -/
theorem WellNamed.id_eq_iff
    (named : WellNamed steps)
    {index : Nat}
    {step : Step}
    (isStep : steps[index]? = some step)
    (isGiven : step.id = some id) :
    numberedId step.baseName
        (((steps.take index).map Step.baseName).count step.baseName) = id ↔
      Keeps steps index id := by
  have notBlank := named.given step (List.mem_of_getElem? isStep) id isGiven
  rw [baseName_of_given isGiven notBlank, numberedId_trimmed_eq_iff notBlank,
    List.count_eq_zero, List.mem_map, not_exists, Keeps]
  refine and_congr_right fun isTrimmed => ?_
  constructor
  · intro noneBefore earlier isEarlier notGiven isTool
    refine noneBefore earlier ⟨isEarlier, ?_⟩
    rw [isTrimmed, ← isTool, Step.baseName, notGiven]
  · rintro noneBefore earlier ⟨isEarlier, isName⟩
    cases isEarlierId : earlier.id with
    | none =>
        rw [Step.baseName, isEarlierId, isTrimmed] at isName
        exact noneBefore earlier isEarlier isEarlierId isName
    | some earlierId =>
        have earlierNotBlank :=
          named.given earlier (List.mem_of_mem_take isEarlier) earlierId isEarlierId
        rw [baseName_of_given isEarlierId earlierNotBlank] at isName
        exact named.trimmed_ne isStep isGiven isEarlier isEarlierId isName

/--
Where a step declares the id that another one was given, the plan lists that id for its call.
The other call goes by it exactly if the id is kept; then the plan lists the other call, and in
every schedule of the plan it is waited for.  If the id is not kept, the plan lists the other
call only if a step with a call of the same id declares it under its own id.
-/
theorem listed_iff_keeps
    (named : WellNamed steps)
    (made : ofSteps steps = .ok plan)
    {index other : Nat}
    {step waiting : Step}
    (isStep : steps[index]? = some step)
    (isGiven : step.id = some id)
    (isWaiting : steps[other]? = some waiting)
    (declared : id ∈ waiting.dependsOn) :
    ∃ call waitingCall,
      plan.steps[index]? = some call ∧ plan.steps[other]? = some waitingCall ∧
        Listed plan.dependencies waitingCall.id id ∧
          (call.id = id ↔ Keeps steps index id) ∧
            (Listed plan.dependencies waitingCall.id call.id ↔
              Keeps steps index id ∨
                ∃ (place : Nat) (same : Step) (sameCall : Call),
                  steps[place]? = some same ∧ plan.steps[place]? = some sameCall ∧
                    sameCall.id = waitingCall.id ∧ call.id ∈ same.dependsOn) ∧
              (Listed plan.dependencies waitingCall.id call.id →
                ∀ schedule,
                  Schedule.ofDependencies plan.steps plan.dependencies = .ok schedule →
                    ∃ awaited,
                      schedule.awaited[other]? = some awaited ∧ call.id ∈ awaited) := by
  have isCall := getElem?_steps_of_ofSteps made index
  have isWaitingCall := getElem?_steps_of_ofSteps made other
  rw [isStep] at isCall
  rw [isWaiting] at isWaitingCall
  have keeps := named.id_eq_iff isStep isGiven
  have isListed :=
    (listed_iff_of_ofSteps made).mpr ⟨other, waiting, _, isWaiting, isWaitingCall, rfl, declared⟩
  refine ⟨_, _, isCall, isWaitingCall, isListed, keeps, ?_, ?_⟩
  · constructor
    · intro lists
      exact Or.inr ((listed_iff_of_ofSteps made).mp lists)
    · rintro (isKept | declares)
      · change Listed plan.dependencies _ (numberedId _ _)
        rwa [keeps.mpr isKept]
      · exact (listed_iff_of_ofSteps made).mpr declares
  · intro lists schedule scheduled
    obtain ⟨_, sameLength, awaits⟩ := Schedule.awaits_ofDependencies scheduled
    have inside : other < schedule.awaited.length := by
      rw [sameLength]
      exact (List.getElem?_eq_some_iff.mp isWaitingCall).1
    have found := List.getElem?_eq_getElem inside
    exact ⟨_, found, (awaits other _ _ isWaitingCall found _).mpr
      ⟨lists, _, List.mem_of_getElem? isCall, rfl⟩⟩

/-- A step waits for another that it declares by its id, although a later step has no id but
a tool of that name. -/
theorem listed_iff_keeps_waits :
    let steps : List Step :=
      [⟨some "a", "q", .null, []⟩, ⟨none, "a", .null, []⟩, ⟨some " b ", "q", .null, ["a"]⟩]
    WellNamed steps ∧ Keeps steps 0 "a" ∧
      ∃ plan,
        ofSteps steps = .ok plan ∧ plan.stepIds = ["a", "a#2", "b"] ∧
          Listed plan.dependencies "b" "a" := by
  intro steps
  have named : WellNamed steps := ⟨by decide +kernel, by decide +kernel⟩
  have isKept : Keeps steps 0 "a" := ⟨by decide +kernel, by decide +kernel⟩
  have made :
      ofSteps steps =
        .ok ⟨[⟨"a", "q", .null, none⟩, ⟨"a#2", "a", .null, none⟩, ⟨"b", "q", .null, none⟩],
          [("b", ["a"])]⟩ := by
    decide +kernel
  obtain ⟨call, waitingCall, isCall, isWaitingCall, _, _, lists, _⟩ :=
    listed_iff_keeps named made
      (show steps[0]? = some ⟨some "a", "q", .null, []⟩ from rfl) rfl
      (show steps[2]? = some ⟨some " b ", "q", .null, ["a"]⟩ from rfl) (by decide)
  cases isCall
  cases isWaitingCall
  exact ⟨named, isKept, _, made, rfl, lists.mpr (Or.inl isKept)⟩

/-- An id with a blank behind it is not that of its call, and neither is an id that a step
before goes by as the name of its tool.  So in one plan the last step waits for nobody, and in
the other one for the wrong call. -/
theorem unlisted_of_unkept :
    let padded : List Step := [⟨some "a ", "q", .null, []⟩, ⟨some "b", "q", .null, ["a "]⟩]
    let taken : List Step :=
      [⟨none, "a", .null, []⟩, ⟨some "a", "q", .null, []⟩, ⟨some "b", "q", .null, ["a"]⟩]
    (WellNamed padded ∧
      ∃ plan,
        ofSteps padded = .ok plan ∧ plan.stepIds = ["a", "b"] ∧
          ¬ Listed plan.dependencies "b" "a" ∧
            (Schedule.ofDependencies plan.steps plan.dependencies).map (·.awaited) =
              .ok [[], []]) ∧
      WellNamed taken ∧
        ∃ plan,
          ofSteps taken = .ok plan ∧ plan.stepIds = ["a", "a#2", "b"] ∧
            ¬ Listed plan.dependencies "b" "a#2" ∧
              (Schedule.ofDependencies plan.steps plan.dependencies).map (·.awaited) =
                .ok [[], [], ["a"]] := by
  intro padded taken
  have paddedNamed : WellNamed padded := ⟨by decide +kernel, by decide +kernel⟩
  have takenNamed : WellNamed taken := ⟨by decide +kernel, by decide +kernel⟩
  refine ⟨⟨paddedNamed,
      ⟨[⟨"a", "q", .null, none⟩, ⟨"b", "q", .null, none⟩], [("b", ["a "])]⟩,
      by decide +kernel, rfl, ?_, by decide +kernel⟩,
    takenNamed,
    ⟨[⟨"a", "a", .null, none⟩, ⟨"a#2", "q", .null, none⟩, ⟨"b", "q", .null, none⟩],
      [("b", ["a"])]⟩,
    by decide +kernel, rfl, ?_, by decide +kernel⟩
  · simp [Listed]
  · simp [Listed]

end Given

end Plan

end Runbook
