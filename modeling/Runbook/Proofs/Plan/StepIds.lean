import Mathlib.Data.List.Nodup
import Mathlib.Data.List.Count
import Runbook.Plan.Step
import Runbook.Proofs.Text.Parts

namespace Runbook

/-!
# The ids of steps

The id of a step is the name that it starts from, with a number attached if that name came up
before.  Numbers keep apart the steps of one name.  What they cannot keep apart is a numbered
id from a step that was given that very text as its name; this module proves that ids are
distinct exactly where no such step exists.
-/

namespace Plan

section Numbered

variable {base other : String} {earlier before : Nat}

theorem numberedId_zero (base : String) : numberedId base 0 = base :=
  if_pos rfl

theorem toList_numberedId (number : earlier ≠ 0) :
    (numberedId base earlier).toList =
      base.toList ++ '#' :: Nat.toDigits 10 (earlier + 1) := by
  simp [numberedId, number, Nat.toString_eq_repr, Nat.toList_repr]

/-- No digit of a number is the sign that stands before it. -/
theorem sign_notMem_toDigits (number : Nat) : '#' ∉ Nat.toDigits 10 number := by
  intro member
  have isDigit := Nat.isDigit_of_mem_toDigits (by decide) (by decide) member
  revert isDigit
  decide

/-- A numbered id is longer than its name. -/
theorem numberedId_ne_base (number : earlier ≠ 0) : numberedId base earlier ≠ base := by
  intro same
  have sameLength := congrArg (List.length ∘ String.toList) same
  simp [toList_numberedId number] at sameLength

/-- Numbered ids tell their names and their numbers: the last sign parts the two. -/
theorem numberedId_inj
    (number : earlier ≠ 0)
    (otherNumber : before ≠ 0)
    (same : numberedId base earlier = numberedId other before) :
    base = other ∧ earlier = before := by
  have parted (name : String) (count : Nat) :
      Text.splitFirst? ['#']
          ((Nat.toDigits 10 count).reverse ++ ['#'] ++ name.toList.reverse) =
        some ((Nat.toDigits 10 count).reverse, name.toList.reverse) :=
    Text.splitFirst?_append_of_notMem
      (by simpa using sign_notMem_toDigits count) [] name.toList.reverse
  have sameReversed :
      (Nat.toDigits 10 (earlier + 1)).reverse ++ ['#'] ++ base.toList.reverse =
        (Nat.toDigits 10 (before + 1)).reverse ++ ['#'] ++ other.toList.reverse := by
    have sameCharacters := congrArg (List.reverse ∘ String.toList) same
    simpa [toList_numberedId number, toList_numberedId otherNumber] using sameCharacters
  have sameParts := parted base (earlier + 1)
  rw [sameReversed, parted other (before + 1)] at sameParts
  simp only [Option.some.injEq, Prod.mk.injEq, List.reverse_inj] at sameParts
  have sameNumber : before + 1 = earlier + 1 := by
    simpa using congrArg (fun digits => Nat.ofDigitChars 10 digits 0) sameParts.1
  exact ⟨String.toList_inj.mp sameParts.2.symm, (Nat.succ.inj sameNumber).symm⟩

/-- Steps of one name have ids of their own. -/
theorem numberedId_right_inj
    (same : numberedId base earlier = numberedId base before) :
    earlier = before := by
  by_cases number : earlier = 0
  · by_cases otherNumber : before = 0
    · rw [number, otherNumber]
    · rw [number, numberedId_zero] at same
      exact absurd same.symm (numberedId_ne_base otherNumber)
  · by_cases otherNumber : before = 0
    · rw [otherNumber, numberedId_zero] at same
      exact absurd same (numberedId_ne_base number)
    · exact (numberedId_inj number otherNumber same).2

/-- Steps of different names share an id only if one of them is named like the numbered id of
the other. -/
theorem numberedId_eq_other
    (different : base ≠ other)
    (same : numberedId base earlier = numberedId other before) :
    (earlier ≠ 0 ∧ numberedId base earlier = other) ∨
      (before ≠ 0 ∧ numberedId other before = base) := by
  by_cases number : earlier = 0
  · by_cases otherNumber : before = 0
    · rw [number, otherNumber] at same
      exact absurd same different
    · rw [number, numberedId_zero] at same
      exact Or.inr ⟨otherNumber, same.symm⟩
  · by_cases otherNumber : before = 0
    · rw [otherNumber, numberedId_zero] at same
      exact Or.inl ⟨number, same⟩
    · exact absurd (numberedId_inj number otherNumber same).1 different

end Numbered

section Counted

variable {names : List String} {name : String}

/-- Before a later place a name came up more often than before one where it stands. -/
theorem count_take_lt
    {index later : Nat}
    (isName : names[index]? = some name)
    (isLater : index < later) :
    (names.take index).count name < (names.take later).count name := by
  have isPart : (names.take (index + 1)).Sublist (names.take later) :=
    (List.take_prefix_take_left isLater).sublist
  have atMost := isPart.count_le name
  rw [List.take_add_one, isName, List.count_append] at atMost
  simp at atMost
  omega

/-- Where a name stands, it comes up once more. -/
theorem count_take_lt_count
    {index : Nat}
    (isName : names[index]? = some name) :
    (names.take index).count name < names.count name := by
  have inside : index < names.length := (List.getElem?_eq_some_iff.mp isName).1
  simpa using count_take_lt isName inside

/-- A name that comes up often enough stands somewhere behind so many others like it. -/
theorem exists_of_lt_count
    {earlier : Nat}
    (isOften : earlier < names.count name) :
    ∃ index, names[index]? = some name ∧ (names.take index).count name = earlier := by
  induction names generalizing earlier with
  | nil =>
      simp at isOften
  | cons head rest inductionHypothesis =>
      rw [List.count_cons] at isOften
      by_cases same : head = name
      · cases earlier with
        | zero =>
            exact ⟨0, by simp [same], rfl⟩
        | succ earlier =>
            have isOftenInRest : earlier < rest.count name := by
              simp only [same, beq_self_eq_true, ↓reduceIte] at isOften
              omega
            obtain ⟨index, isName, isCount⟩ := inductionHypothesis isOftenInRest
            exact ⟨index + 1, by simpa using isName, by simp [same, isCount]⟩
      · have isOftenInRest : earlier < rest.count name := by
          simpa [same] using isOften
        obtain ⟨index, isName, isCount⟩ := inductionHypothesis isOftenInRest
        exact ⟨index + 1, by simpa using isName, by simp [same, isCount]⟩

/-- The id of a step with a number is also the name of a step. -/
def Clashes (names : List String) : Prop :=
  ∃ name earlier, 0 < earlier ∧ earlier < names.count name ∧ numberedId name earlier ∈ names

/-- Ids given by name and number are distinct unless one with a number is a name itself. -/
theorem nodup_iff_not_clashes
    {ids : List String}
    (isId : ∀ index, ids[index]? =
      names[index]?.map fun name => numberedId name ((names.take index).count name)) :
    ids.Nodup ↔ ¬ Clashes names := by
  constructor
  · rintro nodup ⟨name, earlier, number, isOften, isAlsoName⟩
    obtain ⟨index, isName, isCount⟩ := exists_of_lt_count isOften
    obtain ⟨other, isOther, isFirst⟩ := exists_of_lt_count (List.count_pos_iff.mpr isAlsoName)
    have idAtIndex : ids[index]? = some (numberedId name earlier) := by
      rw [isId, isName, Option.map_some, isCount]
    have idAtOther : ids[other]? = some (numberedId name earlier) := by
      rw [isId, isOther, Option.map_some, isFirst, numberedId_zero]
    have inside : index < ids.length := (List.getElem?_eq_some_iff.mp idAtIndex).1
    have samePlace : index = other :=
      (List.getElem?_inj inside nodup).mp (idAtIndex.trans idAtOther.symm)
    rw [samePlace, isOther] at isName
    exact numberedId_ne_base (Nat.pos_iff_ne_zero.mp number) (Option.some.inj isName)
  · intro noClash
    rw [List.nodup_iff_getElem?_ne_getElem?]
    intro index later isLater inside sameId
    obtain ⟨second, isSecond, secondId⟩ :=
      Option.map_eq_some_iff.mp ((isId later).symm.trans (List.getElem?_eq_getElem inside))
    obtain ⟨first, isFirst, firstId⟩ :=
      Option.map_eq_some_iff.mp
        ((isId index).symm.trans (sameId.trans (List.getElem?_eq_getElem inside)))
    have same := firstId.trans secondId.symm
    by_cases sameName : first = second
    · subst sameName
      have isMore := count_take_lt isFirst isLater
      rw [numberedId_right_inj same] at isMore
      exact Nat.lt_irrefl _ isMore
    · rcases numberedId_eq_other sameName same with ⟨number, isSecondName⟩ | ⟨number, isFirstName⟩
      · exact noClash ⟨first, _, Nat.pos_of_ne_zero number,
          count_take_lt_count isFirst, isSecondName ▸ List.mem_of_getElem? isSecond⟩
      · exact noClash ⟨second, _, Nat.pos_of_ne_zero number,
          count_take_lt_count isSecond, isFirstName ▸ List.mem_of_getElem? isFirst⟩

/-- Names without the sign that stands before a number do not clash. -/
theorem not_clashes_of_no_sign
    (noSign : ∀ name ∈ names, '#' ∉ name.toList) :
    ¬ Clashes names := by
  rintro ⟨name, earlier, number, _, isAlsoName⟩
  refine noSign _ isAlsoName ?_
  rw [toList_numberedId (Nat.pos_iff_ne_zero.mp number)]
  exact List.mem_append_right _ List.mem_cons_self

end Counted

section Calls

variable {step : Step} {steps : List Step} {calls : List (Call × List String)}

/-- A string without the blanks around it is empty if it holds nothing else. -/
theorem trimmed_eq_empty_iff {text : String} : Text.trimmed text = "" ↔ Text.allBlank text := by
  rw [Text.allBlank, ← Text.trim_eq_nil_iff, Text.trimmed, ← String.toList_inj,
    String.toList_ofList]
  rfl

/-- The id of a step with a tool is not empty. -/
theorem numberedId_ne_empty
    (hasTool : step.toolName ≠ "")
    (earlier : Nat) :
    numberedId step.baseName earlier ≠ "" := by
  by_cases number : earlier = 0
  · rw [number, numberedId_zero, Step.baseName]
    split
    case h_1 =>
      exact hasTool
    case h_2 id _ =>
      split
      case isTrue =>
        exact hasTool
      case isFalse notBlank =>
        exact fun isEmpty => notBlank (trimmed_eq_empty_iff.mp isEmpty)
  · intro isEmpty
    have noCharacters := congrArg String.toList isEmpty
    simp [toList_numberedId number] at noCharacters

/-- The call of a step whose name came up `earlier` times before. -/
def callOf (step : Step) (earlier : Nat) : Call :=
  ⟨numberedId step.baseName earlier, step.toolName, step.input, none⟩

/-- A step with a tool gives its call, unless a later one fails. -/
theorem callsOf_cons
    (hasTool : step.toolName ≠ "")
    (seen : List String) :
    callsOf seen (step :: steps) =
      (callsOf (seen ++ [step.baseName]) steps).map
        ((callOf step (seen.count step.baseName), step.dependsOn) :: ·) := by
  have isNumbered :
      (Call.ofTool step.toolName step.input).withId
          (numberedId step.baseName (seen.count step.baseName)) =
        callOf step (seen.count step.baseName) := by
    rw [Call.withId, if_neg (by simpa using numberedId_ne_empty hasTool _)]
    rfl
  rw [callsOf, if_neg (by simpa using hasTool)]
  simp only [isNumbered]
  cases callsOf (seen ++ [step.baseName]) steps <;> rfl

/-- A step without a tool is refused. -/
theorem callsOf_cons_of_no_tool
    (noTool : step.toolName = "")
    (seen : List String) :
    callsOf seen (step :: steps) = .error "plan step has an empty tool name" := by
  rw [callsOf, if_pos (by simpa using noTool)]

/-- Steps give calls if each has a tool. -/
theorem exists_callsOf_iff
    (seen : List String) :
    (∃ calls, callsOf seen steps = .ok calls) ↔ ∀ step ∈ steps, step.toolName ≠ "" := by
  induction steps generalizing seen with
  | nil =>
      simp [callsOf]
  | cons step rest inductionHypothesis =>
      rw [List.forall_mem_cons, ← inductionHypothesis (seen ++ [step.baseName])]
      by_cases hasTool : step.toolName = ""
      · simp [callsOf_cons_of_no_tool hasTool, hasTool]
      · rw [callsOf_cons hasTool]
        cases callsOf (seen ++ [step.baseName]) rest <;> simp [Except.map, hasTool]

/-- Steps give their calls in order, each numbered by the names before it. -/
theorem getElem?_callsOf
    {seen : List String}
    (made : callsOf seen steps = .ok calls)
    (index : Nat) :
    calls[index]? =
      steps[index]?.map fun step =>
        (callOf step ((seen ++ (steps.take index).map Step.baseName).count step.baseName),
          step.dependsOn) := by
  induction steps generalizing seen calls index with
  | nil =>
      cases made
      simp
  | cons step rest inductionHypothesis =>
      by_cases hasTool : step.toolName = ""
      · rw [callsOf_cons_of_no_tool hasTool] at made
        cases made
      · rw [callsOf_cons hasTool] at made
        cases isRest : callsOf (seen ++ [step.baseName]) rest with
        | error message =>
            rw [isRest] at made
            cases made
        | ok later =>
            rw [isRest] at made
            cases made
            cases index with
            | zero =>
                simp
            | succ index =>
                simpa using inductionHypothesis isRest index

/-- The plan in which a call depends on what is declared for it. -/
def declare (plan : Plan) (entry : Call × List String) : Plan :=
  if entry.2.isEmpty then plan else plan.withDependency entry.1.id entry.2

/-- Declaring dependencies leaves the calls of a plan as they are. -/
theorem steps_foldl_declare
    (calls : List (Call × List String))
    (plan : Plan) :
    (calls.foldl declare plan).steps = plan.steps := by
  induction calls generalizing plan with
  | nil =>
      rfl
  | cons entry rest inductionHypothesis =>
      rw [List.foldl_cons, inductionHypothesis, declare]
      split <;> rfl

end Calls

section Made

variable {steps : List Step} {plan : Plan}

/-- A plan is made of the calls of its steps. -/
theorem exists_callsOf_of_ofSteps
    (made : ofSteps steps = .ok plan) :
    ∃ calls,
      callsOf [] steps = .ok calls ∧ plan = calls.foldl declare ⟨calls.map (·.1), []⟩ := by
  rw [ofSteps] at made
  cases isCalls : callsOf [] steps with
  | error message =>
      rw [isCalls] at made
      cases made
  | ok calls =>
      rw [isCalls] at made
      cases made
      exact ⟨calls, rfl, rfl⟩

/-- Each step of a plan has its call, numbered by the steps before it. -/
theorem getElem?_steps_of_ofSteps
    (made : ofSteps steps = .ok plan)
    (index : Nat) :
    plan.steps[index]? =
      steps[index]?.map fun step =>
        callOf step (((steps.take index).map Step.baseName).count step.baseName) := by
  obtain ⟨calls, isCalls, rfl⟩ := exists_callsOf_of_ofSteps made
  rw [steps_foldl_declare, List.getElem?_map, getElem?_callsOf isCalls, Option.map_map]
  rfl

/-- Steps make a plan if each has a tool. -/
theorem exists_ofSteps_iff :
    (∃ plan, ofSteps steps = .ok plan) ↔ ∀ step ∈ steps, step.toolName ≠ "" := by
  rw [← exists_callsOf_iff []]
  constructor
  · rintro ⟨plan, made⟩
    obtain ⟨calls, isCalls, _⟩ := exists_callsOf_of_ofSteps made
    exact ⟨calls, isCalls⟩
  · rintro ⟨calls, isCalls⟩
    rw [ofSteps, isCalls]
    exact ⟨_, rfl⟩

/--
Steps make a plan if each names a tool.  The plan has one call for each step, in order, of the
tool that the step names, and its ids are distinct exactly if no numbered id is also the name
of a step.
-/
theorem nodup_stepIds_iff (steps : List Step) :
    ((∃ plan, ofSteps steps = .ok plan) ↔ ∀ step ∈ steps, Text.trimmed step.tool ≠ "") ∧
      ∀ plan, ofSteps steps = .ok plan →
        plan.steps.map (·.name) = steps.map (fun step => Text.trimmed step.tool) ∧
          (plan.stepIds.Nodup ↔ ¬ Clashes (steps.map Step.baseName)) := by
  refine ⟨exists_ofSteps_iff, ?_⟩
  intro plan made
  constructor
  · apply List.ext_getElem?
    intro index
    rw [List.getElem?_map, getElem?_steps_of_ofSteps made, List.getElem?_map, Option.map_map]
    rfl
  · apply nodup_iff_not_clashes
    intro index
    rw [stepIds, List.getElem?_map, getElem?_steps_of_ofSteps made, List.getElem?_map,
      Option.map_map, Option.map_map, ← List.map_take]
    rfl

/-- Steps of one name, given or not, padded or not, have ids of their own. -/
theorem nodup_stepIds_iff_padded :
    ∃ plan,
      ofSteps [⟨none, "q", .null, []⟩, ⟨some " q ", " r ", .null, []⟩,
          ⟨some "  ", "q", .null, []⟩] = .ok plan ∧
        plan.stepIds = ["q", "q#2", "q#3"] ∧
          plan.steps.map (·.name) = ["q", "r", "q"] ∧
            plan.stepIds.Nodup := by
  have made :
      ofSteps [⟨none, "q", .null, []⟩, ⟨some " q ", " r ", .null, []⟩,
          ⟨some "  ", "q", .null, []⟩] =
        .ok ⟨[⟨"q", "q", .null, none⟩, ⟨"q#2", "r", .null, none⟩, ⟨"q#3", "q", .null, none⟩],
          []⟩ := by
    decide +kernel
  refine ⟨_, made, rfl, rfl, ((nodup_stepIds_iff _).2 _ made).2.mpr (not_clashes_of_no_sign ?_)⟩
  decide +kernel

/-- A numbered id that is also given to a step stands for two calls. -/
theorem shared_id_of_given_number :
    ∃ plan,
      ofSteps [⟨none, "q", .null, []⟩, ⟨none, "q", .null, []⟩,
          ⟨some "q#2", "q", .null, []⟩] = .ok plan ∧
        plan.stepIds = ["q", "q#2", "q#2"] ∧ ¬ plan.stepIds.Nodup := by
  refine ⟨⟨[⟨"q", "q", .null, none⟩, ⟨"q#2", "q", .null, none⟩, ⟨"q#2", "q", .null, none⟩],
    []⟩, ?_, rfl, ?_⟩
  all_goals decide +kernel

end Made

end Plan

end Runbook
