import Runbook.Proofs.Context.Waiting

namespace Runbook

/-!
# How contexts stand

Whatever is done, and in whatever order: a context has ended exactly if it or one above it was
cancelled, or the least of the limits on the way to its root has come; once it has ended it
stays so; a cancellation reaches what stands below and nothing else, now or later; and a wait
for the end of a context is over as soon as it has ended.
-/

namespace Lineage

open Rehearsal (World)

variable {lineage later : Lineage} {world : World} {id above : Nat}

/-- What stands below another context does so in every lineage with the same births. -/
theorem Below.mono
    (keeps : ∀ (id : Nat) (birth : Birth), lineage.births[id]? = some birth →
      later.births[id]? = some birth)
    (below : lineage.Below id above) :
    later.Below id above := by
  induction below with
  | self id =>
      exact .self id
  | parent isBirth isParent _ inductionHypothesis =>
      exact .parent (keeps _ _ isBirth) isParent inductionHypothesis

/-- What was done stays done. -/
structure Grows (lineage later : Lineage) : Prop where
  births :
    lineage.births <+: later.births
  cancelled :
    lineage.cancelled ⊆ later.cancelled
  now :
    lineage.now ≤ later.now

theorem Grows.refl (lineage : Lineage) : lineage.Grows lineage :=
  ⟨List.prefix_rfl, List.Subset.refl _, Nat.le_refl _⟩

theorem grows_add
    (lineage : Lineage)
    (birth : Birth) :
    lineage.Grows (lineage.add birth) :=
  ⟨List.prefix_append _ _, List.Subset.refl _, Nat.le_refl _⟩

theorem grows_note
    (lineage : Lineage)
    (act : ContextAct) :
    lineage.Grows (lineage.note act) := by
  cases act with
  | new =>
      exact grows_add lineage {}
  | child parent =>
      rw [note]
      split
      · exact grows_add lineage _
      · exact .refl lineage
  | withTimeout parent timeout =>
      rw [note]
      split
      · split
        · exact grows_add lineage _
        · exact .refl lineage
      · exact .refl lineage
  | cancel id =>
      rw [note]
      split
      · exact ⟨List.prefix_rfl, List.subset_cons_self _ _, Nat.le_refl _⟩
      · exact .refl lineage
  | advance duration =>
      exact ⟨List.prefix_rfl, List.Subset.refl _, Nat.le_add_right _ _⟩

theorem grows_foldl
    (lineage : Lineage)
    (acts : List ContextAct) :
    lineage.Grows (acts.foldl note lineage) := by
  induction acts generalizing lineage with
  | nil =>
      exact .refl lineage
  | cons act rest inductionHypothesis =>
      have first := grows_note lineage act
      have onward := inductionHypothesis (lineage.note act)
      exact ⟨first.births.trans onward.births,
        List.Subset.trans first.cancelled onward.cancelled, first.now.trans onward.now⟩

theorem Grows.getElem?
    (grows : lineage.Grows later)
    {birth : Birth}
    (isBirth : lineage.births[id]? = some birth) :
    later.births[id]? = some birth := by
  obtain ⟨added, isLater⟩ := grows.births
  rw [← isLater, List.getElem?_append_left (List.getElem?_eq_some_iff.mp isBirth).1]
  exact isBirth

theorem Grows.below
    (grows : lineage.Grows later)
    (below : lineage.Below id above) :
    later.Below id above :=
  below.mono fun _ _ => grows.getElem?

/-- A context that was cancelled stays so. -/
theorem Grows.cancelled_of_cancelled
    (grows : lineage.Grows later)
    (cancelled : lineage.Cancelled id) :
    later.Cancelled id := by
  obtain ⟨above, below, isCancelled⟩ := cancelled
  exact ⟨above, grows.below below, grows.cancelled isCancelled⟩

/-- A context that is late stays so. -/
theorem Grows.late_of_late
    (grows : lineage.Grows later)
    (late : lineage.Late id) :
    later.Late id := by
  obtain ⟨limit, ⟨above, birth, below, isBirth, isLimit⟩, isOver⟩ := late_iff.mp late
  exact late_iff.mpr
    ⟨limit, ⟨above, birth, grows.below below, grows.getElem? isBirth, isLimit⟩,
      isOver.trans grows.now⟩

/-- Two lineages tell the same but for whether one context was cancelled. -/
structure SameBut (id : Nat) (first second : Lineage) : Prop where
  births :
    first.births = second.births
  now :
    first.now = second.now
  cancelled :
    ∀ other, other ≠ id → (other ∈ first.cancelled ↔ other ∈ second.cancelled)

theorem sameBut_cancel
    (lineage : Lineage)
    (id : Nat) :
    SameBut id (lineage.note (.cancel id)) lineage := by
  rw [note]
  split
  · exact ⟨rfl, rfl, fun other isOther => by simp [isOther]⟩
  · exact ⟨rfl, rfl, fun _ _ => Iff.rfl⟩

theorem SameBut.add
    {first second : Lineage}
    (same : SameBut id first second)
    (birth : Birth) :
    SameBut id (first.add birth) (second.add birth) :=
  ⟨by rw [Lineage.add, Lineage.add, same.births], same.now, same.cancelled⟩

theorem SameBut.note
    {first second : Lineage}
    (same : SameBut id first second)
    (act : ContextAct) :
    SameBut id (first.note act) (second.note act) := by
  cases act with
  | new =>
      exact same.add {}
  | child parent =>
      rw [Lineage.note, Lineage.note, same.births]
      split
      · exact same.add _
      · exact same
  | withTimeout parent timeout =>
      rw [Lineage.note, Lineage.note, same.births, same.now]
      split
      · split
        · exact same.add _
        · exact same
      · exact same
  | cancel target =>
      rw [Lineage.note, Lineage.note, same.births]
      split
      · refine ⟨rfl, same.now, fun other isOther => ?_⟩
        rw [List.mem_cons, List.mem_cons, same.cancelled other isOther]
      · exact same
  | advance duration =>
      exact ⟨same.births, congrArg (· + duration) same.now, same.cancelled⟩

theorem SameBut.foldl
    {first second : Lineage}
    (same : SameBut id first second)
    (acts : List ContextAct) :
    SameBut id (acts.foldl Lineage.note first) (acts.foldl Lineage.note second) := by
  induction acts generalizing first second with
  | nil =>
      exact same
  | cons act rest inductionHypothesis =>
      exact inductionHypothesis (same.note act)

theorem SameBut.below_iff
    {first second : Lineage}
    (same : SameBut id first second)
    {other : Nat} :
    first.Below other above ↔ second.Below other above :=
  ⟨Below.mono fun _ _ isBirth => same.births ▸ isBirth,
    Below.mono fun _ _ isBirth => same.births ▸ isBirth⟩

/-- A cancellation is no matter to a context that does not stand below. -/
theorem SameBut.cancelled_iff
    {first second : Lineage}
    (same : SameBut id first second)
    {other : Nat}
    (apart : ¬ second.Below other id) :
    first.Cancelled other ↔ second.Cancelled other := by
  refine exists_congr fun above => ?_
  rw [same.below_iff]
  refine and_congr_right fun below => same.cancelled above ?_
  rintro rfl
  exact apart below

theorem SameBut.late_iff
    {first second : Lineage}
    (same : SameBut id first second)
    {other : Nat} :
    first.Late other ↔ second.Late other := by
  have sameLimits : first.limits other = second.limits other := by
    ext limit
    refine exists_congr fun above => exists_congr fun birth => ?_
    rw [same.below_iff, same.births]
  rw [Late, Late, sameLimits, same.now]

theorem RecordedIn.lt_of_parent
    (recorded : lineage.RecordedIn world)
    {birth : Birth}
    {parent : Nat}
    (isBirth : lineage.births[id]? = some birth)
    (isParent : birth.parent = some parent) :
    parent < id := by
  obtain ⟨_, _, shows⟩ := recorded.shows id birth isBirth
  exact shows.parentFirst parent isParent

/-- What stands above a context was made before it. -/
theorem RecordedIn.le_of_below
    (recorded : lineage.RecordedIn world)
    (below : lineage.Below id above) :
    above ≤ id := by
  induction below with
  | self id =>
      exact Nat.le_refl _
  | parent isBirth isParent _ inductionHypothesis =>
      exact inductionHypothesis.trans (recorded.lt_of_parent isBirth isParent).le

/-- Worlds whose lineages agree on a context agree on why it has ended. -/
theorem RecordedIn.ended_eq
    {first second : Lineage}
    {firstWorld secondWorld : World}
    (firstRecorded : first.RecordedIn firstWorld)
    (secondRecorded : second.RecordedIn secondWorld)
    (sameBirths : first.births = second.births)
    (sameCancelled : first.Cancelled id ↔ second.Cancelled id)
    (sameLate : first.Late id ↔ second.Late id) :
    firstWorld.ended id = secondWorld.ended id := by
  have isThere_of_ended :
      ∀ {lineage : Lineage} {world : World} {fault : Fault}, lineage.RecordedIn world →
        world.ended id = some fault → id < lineage.births.length :=
    fun recorded hasEnded => recorded.sameSize ▸ ContextTree.lt_size_of_ended hasEnded
  ext fault
  constructor
  · intro hasEnded
    have isThere := isThere_of_ended firstRecorded hasEnded
    rw [firstRecorded.ended_iff isThere, sameCancelled, sameLate] at hasEnded
    exact (secondRecorded.ended_iff (sameBirths ▸ isThere)).mpr hasEnded
  · intro hasEnded
    have isThere := isThere_of_ended secondRecorded hasEnded
    rw [secondRecorded.ended_iff isThere, ← sameCancelled, ← sameLate] at hasEnded
    exact (firstRecorded.ended_iff (sameBirths ▸ isThere)).mpr hasEnded

end Lineage

open Rehearsal (World)

/-- How contexts stand after some acts, and whatever is done next. -/
structure ContextStanding (acts : List ContextAct) : Prop where
  cancelled_iff :
    ∀ id, id < (Lineage.after acts).births.length →
      ((World.after acts).ended id = some .cancelled ↔ (Lineage.after acts).Cancelled id)
  late_iff :
    ∀ id, id < (Lineage.after acts).births.length →
      ((World.after acts).ended id = some .deadlineExceeded ↔
        ¬ (Lineage.after acts).Cancelled id ∧ (Lineage.after acts).Late id)
  noOther :
    ∀ id fault, (World.after acts).ended id = some fault →
      fault = .cancelled ∨ fault = .deadlineExceeded
  lasts :
    ∀ id fault more, (World.after acts).ended id = some fault →
      ∃ later, (World.after (acts ++ more)).ended id = some later ∧
        (fault = .cancelled → later = .cancelled)
  spares :
    ∀ id other more, ¬ (Lineage.after (acts ++ more)).Below other id →
      (World.after (acts ++ .cancel id :: more)).ended other =
        (World.after (acts ++ more)).ended other
  sparesAncestors :
    ∀ id other, (Lineage.after acts).Below id other → other ≠ id →
      ¬ (Lineage.after acts).Below other id
  sparesSiblings :
    ∀ (id other : Nat) (birth otherBirth : Birth),
      (Lineage.after acts).births[id]? = some birth →
      (Lineage.after acts).births[other]? = some otherBirth →
      otherBirth.parent = birth.parent → other ≠ id →
      ¬ (Lineage.after acts).Below other id
  awaited :
    ∀ id more, (World.after acts).Awaited id more ((World.after acts).awaitEnd id more)

/--
Contexts stand as their lineage has it.  A context has ended as cancelled exactly if it or one
above it was cancelled, and else as late exactly if the least of the instants at which the
timeouts on its way to the root are over has come.  An end is for good, and a cancelled context
stays cancelled.  Cancelling a context makes no difference, now or later, to any that does not
stand below it, which its ancestors and its siblings do not.  A wait for the end of a context is
over at the first moment at which it has ended, whatever is done meanwhile, and gives the reason
that the context has then.
-/
theorem contextStanding_after (acts : List ContextAct) : ContextStanding acts := by
  have recorded := Lineage.recordedIn_after acts
  have known :
      ∀ {id : Nat} {fault : Fault}, (World.after acts).ended id = some fault →
        id < (Lineage.after acts).births.length :=
    fun hasEnded => recorded.sameSize ▸ ContextTree.lt_size_of_ended hasEnded
  refine ⟨?_, ?_, ?_, ?_, ?_, ?_, ?_, fun id more => World.awaited_awaitEnd id _ more⟩
  · intro id isThere
    simp [recorded.ended_iff isThere]
  · intro id isThere
    simp [recorded.ended_iff isThere]
  · intro id fault hasEnded
    exact ((recorded.ended_iff (known hasEnded)).mp hasEnded).imp And.left And.left
  · intro id fault more hasEnded
    have grows : (Lineage.after acts).Grows (Lineage.after (acts ++ more)) := by
      rw [Lineage.after, Lineage.after, List.foldl_append]
      exact Lineage.grows_foldl _ more
    have isThere := known hasEnded
    have standsLater :=
      @Lineage.RecordedIn.ended_iff _ _ id (Lineage.recordedIn_after (acts ++ more))
        (isThere.trans_le grows.births.length_le)
    by_cases cancelled : (Lineage.after (acts ++ more)).Cancelled id
    · exact ⟨.cancelled, standsLater.mpr (Or.inl ⟨rfl, cancelled⟩), fun _ => rfl⟩
    · rcases (recorded.ended_iff isThere).mp hasEnded with
        ⟨_, wasCancelled⟩ | ⟨rfl, _, wasLate⟩
      · exact absurd (grows.cancelled_of_cancelled wasCancelled) cancelled
      · exact ⟨.deadlineExceeded,
          standsLater.mpr (Or.inr ⟨rfl, cancelled, grows.late_of_late wasLate⟩),
          fun isCancelled => by cases isCancelled⟩
  · intro id other more apart
    have same :
        Lineage.SameBut id (Lineage.after (acts ++ .cancel id :: more))
          (Lineage.after (acts ++ more)) := by
      simp only [Lineage.after, List.foldl_append, List.foldl_cons]
      exact (Lineage.sameBut_cancel _ id).foldl more
    exact (Lineage.recordedIn_after _).ended_eq (Lineage.recordedIn_after _) same.births
      (same.cancelled_iff apart) same.late_iff
  · intro id other below different isBelow
    exact different
      (Nat.le_antisymm (recorded.le_of_below below) (recorded.le_of_below isBelow))
  · intro id other birth otherBirth isBirth isOther sameParent different isBelow
    rcases (Lineage.below_iff isOther).mp isBelow with isSame | ⟨parent, isParent, parentBelow⟩
    · exact different isSame.symm
    · have isBefore := recorded.lt_of_parent isBirth (sameParent ▸ isParent)
      exact absurd (recorded.le_of_below parentBelow) (Nat.not_le.mpr isBefore)

end Runbook
