import Mathlib.Order.Bounds.Basic
import Mathlib.Order.Lattice.Nat
import Runbook.Proofs.Context
import Runbook.Rehearsal.World

namespace Runbook

/-!
# The lineage of contexts

Contexts are made, below others or not, with a timeout or not; they are cancelled, and time
passes.  A lineage notes just that: how each context came to be, which ones were cancelled
and how late it is.  It does not know what a deadline is, or when a context has ended.

A tree keeps the earliest deadline with each context, from the moment it is made, and looks
upwards for cancellations.  Whatever is done, that comes to the same as what the lineage
says: a context is cancelled if one was on its way to the root, and late if the least of the
limits on that way has come.
-/

/-- How a context came to be: below which one, and with a timeout that is over when. -/
structure Birth where
  parent : Option Nat := none
  limit : Option Instant := none
  deriving DecidableEq, Repr

/-- What was done with contexts so far. -/
structure Lineage where
  births : List Birth := []
  cancelled : List Nat := []
  now : Instant := 0
  deriving DecidableEq, Repr

namespace Lineage

/-- Note that a context was made. -/
def add (lineage : Lineage) (birth : Birth) : Lineage :=
  { lineage with births := lineage.births ++ [birth] }

/-- Note an act.  Nothing is done to a context that is not there, and no context is made with
a timeout that ends beyond the last instant. -/
def note (lineage : Lineage) : ContextAct → Lineage
  | .new => lineage.add {}
  | .child parent =>
      if parent < lineage.births.length then lineage.add { parent := some parent } else lineage
  | .withTimeout parent timeout =>
      if parent < lineage.births.length then
        match lineage.now.after? timeout with
        | some limit => lineage.add ⟨some parent, some limit⟩
        | none => lineage
      else lineage
  | .cancel id =>
      if id < lineage.births.length then
        { lineage with cancelled := id :: lineage.cancelled }
      else lineage
  | .advance duration => { lineage with now := lineage.now + duration }

/-- The lineage of contexts after some acts. -/
def after (acts : List ContextAct) : Lineage := acts.foldl note {}

/-- A context is another one or stands below it. -/
inductive Below (lineage : Lineage) : Nat → Nat → Prop where
  | self (id : Nat) :
      Below lineage id id
  | parent {id parent above : Nat} {birth : Birth} :
      lineage.births[id]? = some birth →
      birth.parent = some parent →
      Below lineage parent above →
      Below lineage id above

/-- The context or one above it was cancelled. -/
def Cancelled (lineage : Lineage) (id : Nat) : Prop :=
  ∃ above, lineage.Below id above ∧ above ∈ lineage.cancelled

/-- The limits that contexts on the way to the root were made with. -/
def limits (lineage : Lineage) (id : Nat) : Set Instant :=
  {limit | ∃ above birth,
    lineage.Below id above ∧ lineage.births[above]? = some birth ∧ birth.limit = some limit}

/-- The least of the limits on the way to the root has come. -/
def Late (lineage : Lineage) (id : Nat) : Prop :=
  ∃ first, IsLeast (lineage.limits id) first ∧ first ≤ lineage.now

end Lineage

namespace Lineage

open Rehearsal (World)

variable {lineage later : Lineage} {id parent above : Nat} {birth : Birth}

/-- A context stands below itself and below what its parent stands below. -/
theorem below_iff
    (isBirth : lineage.births[id]? = some birth) :
    lineage.Below id above ↔
      above = id ∨ ∃ parent, birth.parent = some parent ∧ lineage.Below parent above := by
  constructor
  · intro below
    cases below with
    | self =>
        exact Or.inl rfl
    | parent again isParent below =>
        rw [isBirth, Option.some.injEq] at again
        exact Or.inr ⟨_, again ▸ isParent, below⟩
  · rintro (rfl | ⟨parent, isParent, below⟩)
    · exact .self above
    · exact .parent isBirth isParent below

/-- A context is cancelled if it was itself, or its parent is. -/
theorem cancelled_iff
    (isBirth : lineage.births[id]? = some birth) :
    lineage.Cancelled id ↔
      id ∈ lineage.cancelled ∨
        ∃ parent, birth.parent = some parent ∧ lineage.Cancelled parent := by
  constructor
  · rintro ⟨above, below, isCancelled⟩
    rcases (below_iff isBirth).mp below with rfl | ⟨parent, isParent, below⟩
    · exact Or.inl isCancelled
    · exact Or.inr ⟨parent, isParent, above, below, isCancelled⟩
  · rintro (isCancelled | ⟨parent, isParent, above, below, isCancelled⟩)
    · exact ⟨id, .self id, isCancelled⟩
    · exact ⟨above, .parent isBirth isParent below, isCancelled⟩

/-- The limits of a context are its own and those of its parent. -/
theorem mem_limits_iff
    (isBirth : lineage.births[id]? = some birth)
    {limit : Instant} :
    limit ∈ lineage.limits id ↔
      birth.limit = some limit ∨
        ∃ parent, birth.parent = some parent ∧ limit ∈ lineage.limits parent := by
  constructor
  · rintro ⟨above, other, below, isOther, isLimit⟩
    rcases (below_iff isBirth).mp below with rfl | ⟨parent, isParent, below⟩
    · rw [isBirth, Option.some.injEq] at isOther
      exact Or.inl (isOther ▸ isLimit)
    · exact Or.inr ⟨parent, isParent, above, other, below, isOther, isLimit⟩
  · rintro (isLimit | ⟨parent, isParent, above, other, below, isOther, isLimit⟩)
    · exact ⟨id, birth, .self id, isBirth, isLimit⟩
    · exact ⟨above, other, .parent isBirth isParent below, isOther, isLimit⟩

/-- The least of the limits has come if one has. -/
theorem late_iff :
    lineage.Late id ↔ ∃ limit ∈ lineage.limits id, limit ≤ lineage.now := by
  constructor
  · rintro ⟨first, isLeast, isOver⟩
    exact ⟨first, isLeast.1, isOver⟩
  · rintro ⟨limit, isLimit, isOver⟩
    have isLeast : IsLeast (lineage.limits id) (sInf (lineage.limits id)) :=
      ⟨Nat.sInf_mem ⟨limit, isLimit⟩, fun _ => Nat.sInf_le⟩
    exact ⟨_, isLeast, (isLeast.2 isLimit).trans isOver⟩

/-- A context is late if its own limit has come, or its parent is late. -/
theorem late_iff_of_birth
    (isBirth : lineage.births[id]? = some birth) :
    lineage.Late id ↔
      (∃ limit, birth.limit = some limit ∧ limit ≤ lineage.now) ∨
        ∃ parent, birth.parent = some parent ∧ lineage.Late parent := by
  simp only [late_iff, mem_limits_iff isBirth]
  constructor
  · rintro ⟨limit, isLimit | ⟨parent, isParent, isLimit⟩, isOver⟩
    · exact Or.inl ⟨limit, isLimit, isOver⟩
    · exact Or.inr ⟨parent, isParent, limit, isLimit, isOver⟩
  · rintro (⟨limit, isLimit, isOver⟩ | ⟨parent, isParent, limit, isLimit, isOver⟩)
    · exact ⟨limit, Or.inl isLimit, isOver⟩
    · exact ⟨limit, Or.inr ⟨parent, isParent, isLimit⟩, isOver⟩

end Lineage

namespace ContextTree

/-- Add a context that came to be in some way. -/
def grow (tree : ContextTree) (birth : Birth) : ContextTree :=
  ⟨tree.contexts ++
    [{ parent := birth.parent
       deadline := earliest birth.limit (birth.parent.bind tree.deadline?) }]⟩

theorem child_eq_grow
    (tree : ContextTree)
    (parent : Nat) :
    tree.child parent = tree.grow { parent := some parent } :=
  rfl

theorem withTimeout_eq_map_grow
    (tree : ContextTree)
    (parent : Nat)
    (now : Instant)
    (timeout : Duration) :
    tree.withTimeout parent now timeout =
      (now.after? timeout).map fun limit => tree.grow ⟨some parent, some limit⟩ :=
  rfl

variable {tree : ContextTree} {id : Nat}

theorem getElem?_grow
    (inTree : id < tree.size)
    (birth : Birth) :
    (tree.grow birth).contexts[id]? = tree.contexts[id]? :=
  List.getElem?_append_left inTree

theorem getElem?_grow_self
    (tree : ContextTree)
    (birth : Birth) :
    (tree.grow birth).contexts[tree.size]? =
      some
        { parent := birth.parent
          deadline := earliest birth.limit (birth.parent.bind tree.deadline?) } :=
  List.getElem?_concat_length

theorem deadline?_grow
    (inTree : id < tree.size)
    (birth : Birth) :
    (tree.grow birth).deadline? id = tree.deadline? id := by
  rw [deadline?, getElem?_grow inTree, deadline?]

theorem deadline?_cancel
    (tree : ContextTree)
    (id other : Nat)
    (from_ : Instant) :
    (tree.cancel other from_).deadline? id = tree.deadline? id := by
  by_cases isSame : other = id
  · cases found : tree.contexts[id]? with
    | none =>
        simp [deadline?, cancel, isSame, found]
    | some context =>
        simp [deadline?, cancel, isSame, found]
  · simp [deadline?, cancel, isSame]

end ContextTree

namespace Lineage

open ContextTree
open Rehearsal (World)

/-- A context of a tree is as it came to be, and cancelled if it was. -/
structure Shows (lineage : Lineage) (tree : ContextTree) (id : Nat) (birth : Birth)
    (context : Context) : Prop where
  parent :
    context.parent = birth.parent
  parentFirst :
    ∀ parent, birth.parent = some parent → parent < id
  deadline :
    context.deadline = earliest birth.limit (birth.parent.bind tree.deadline?)
  cancelled :
    id ∈ lineage.cancelled → hasCome lineage.now context.cancelledFrom = true
  notCancelled :
    id ∉ lineage.cancelled → context.cancelledFrom = none

/-- The tree of a world has the contexts of a lineage. -/
structure RecordedIn (lineage : Lineage) (world : World) : Prop where
  sameNow :
    world.now = lineage.now
  sameSize :
    world.tree.size = lineage.births.length
  known :
    ∀ id ∈ lineage.cancelled, id < lineage.births.length
  shows :
    ∀ (id : Nat) (birth : Birth), lineage.births[id]? = some birth →
      ∃ context, world.tree.contexts[id]? = some context ∧
        lineage.Shows world.tree id birth context

section Recorded

variable {lineage : Lineage} {world : World} {id : Nat} {birth : Birth}

theorem RecordedIn.lt_size
    (recorded : lineage.RecordedIn world)
    (isBirth : lineage.births[id]? = some birth) :
    id < world.tree.size := by
  rw [recorded.sameSize]
  exact (List.getElem?_eq_some_iff.mp isBirth).1

/-- A new context below one that is there is recorded when it is made. -/
theorem RecordedIn.add
    (recorded : lineage.RecordedIn world)
    (birth : Birth)
    (parentThere : ∀ parent, birth.parent = some parent → parent < world.tree.size) :
    (lineage.add birth).RecordedIn { world with tree := world.tree.grow birth } := by
  -- The deadlines of parents stay as they are, so those of their children do.
  have sameDeadline :
      ∀ other : Birth, (∀ parent, other.parent = some parent → parent < world.tree.size) →
        other.parent.bind (world.tree.grow birth).deadline? =
          other.parent.bind world.tree.deadline? := by
    intro other isThere
    cases isParent : other.parent with
    | none =>
        rfl
    | some parent =>
        exact deadline?_grow (isThere parent isParent) birth
  refine ⟨recorded.sameNow, ?_, ?_, ?_⟩
  · simp [Lineage.add, grow, size, ← recorded.sameSize]
  · intro id isCancelled
    rw [Lineage.add, List.length_append]
    exact Nat.lt_add_right _ (recorded.known id isCancelled)
  · intro id other isBirth
    by_cases isOld : id < lineage.births.length
    · rw [Lineage.add, List.getElem?_append_left isOld] at isBirth
      obtain ⟨context, found, shows⟩ := recorded.shows id other isBirth
      have inTree := recorded.lt_size isBirth
      refine ⟨context, (getElem?_grow inTree birth).trans found, shows.parent,
        shows.parentFirst, ?_, shows.cancelled, shows.notCancelled⟩
      rw [sameDeadline other fun parent isParent =>
        (shows.parentFirst parent isParent).trans inTree]
      exact shows.deadline
    · have isNew : id = lineage.births.length := by
        have isInside := (List.getElem?_eq_some_iff.mp isBirth).1
        rw [Lineage.add, List.length_append, List.length_singleton] at isInside
        omega
      subst isNew
      rw [Lineage.add, List.getElem?_concat_length, Option.some.injEq] at isBirth
      subst isBirth
      have isLast := getElem?_grow_self world.tree birth
      rw [recorded.sameSize] at isLast
      refine ⟨_, isLast, rfl, ?_, ?_, ?_, fun _ => rfl⟩
      · exact fun parent isParent => recorded.sameSize ▸ parentThere parent isParent
      · rw [sameDeadline birth parentThere]
      · exact fun isCancelled => absurd (recorded.known _ isCancelled) (Nat.lt_irrefl _)

/-- Cancelling a context is recorded with it. -/
theorem RecordedIn.cancel
    (recorded : lineage.RecordedIn world)
    (isThere : id < lineage.births.length) :
    ({ lineage with cancelled := id :: lineage.cancelled } : Lineage).RecordedIn
      (world.cancel id world.now) := by
  refine ⟨recorded.sameNow, (size_cancel _ _ _).trans recorded.sameSize, ?_, ?_⟩
  · intro other isCancelled
    rcases List.mem_cons.mp isCancelled with rfl | wasCancelled
    · exact isThere
    · exact recorded.known other wasCancelled
  · intro other birth isBirth
    obtain ⟨context, found, shows⟩ := recorded.shows other birth isBirth
    have sameDeadline :
        (world.cancel id world.now).tree.deadline? = world.tree.deadline? :=
      funext fun above => deadline?_cancel world.tree above id world.now
    by_cases isSame : id = other
    · subst isSame
      refine ⟨{ context with cancelledFrom := earliest context.cancelledFrom (some world.now) },
        ?_, shows.parent, shows.parentFirst, ?_, ?_, ?_⟩
      · simp [World.cancel, ContextTree.cancel, found]
      · rw [sameDeadline]
        exact shows.deadline
      · intro _
        rw [hasCome_earliest, recorded.sameNow]
        simp [hasCome]
      · exact fun notCancelled => absurd List.mem_cons_self notCancelled
    · refine ⟨context, ?_, shows.parent, shows.parentFirst, ?_, ?_, ?_⟩
      · simp [World.cancel, ContextTree.cancel, isSame, found]
      · rw [sameDeadline]
        exact shows.deadline
      · intro isCancelled
        exact shows.cancelled ((List.mem_cons.mp isCancelled).resolve_left (Ne.symm isSame))
      · intro notCancelled
        exact shows.notCancelled (fun wasCancelled =>
          notCancelled (List.mem_cons_of_mem _ wasCancelled))

/-- Time that passes leaves what is recorded. -/
theorem RecordedIn.advance
    (recorded : lineage.RecordedIn world)
    (duration : Duration) :
    ({ lineage with now := lineage.now + duration } : Lineage).RecordedIn
      (world.goTo (world.now + duration)) := by
  refine ⟨?_, recorded.sameSize, recorded.known, ?_⟩
  · simp [World.goTo, recorded.sameNow]
  · intro id birth isBirth
    obtain ⟨context, found, shows⟩ := recorded.shows id birth isBirth
    exact ⟨context, found, shows.parent, shows.parentFirst, shows.deadline,
      fun isCancelled => hasCome_of_le (Nat.le_add_right _ _) (shows.cancelled isCancelled),
      shows.notCancelled⟩

/-- Whatever is done is recorded. -/
theorem RecordedIn.perform
    (recorded : lineage.RecordedIn world)
    (act : ContextAct) :
    (lineage.note act).RecordedIn (world.perform act) := by
  cases act with
  | new =>
      exact recorded.add {} nofun
  | child parent =>
      rw [note, World.perform, recorded.sameSize, child_eq_grow]
      split
      case isTrue isThere =>
        refine recorded.add _ fun other isParent => ?_
        cases isParent
        exact recorded.sameSize ▸ isThere
      case isFalse =>
        exact recorded
  | withTimeout parent timeout =>
      rw [note, World.perform, recorded.sameSize, withTimeout_eq_map_grow,
        ← recorded.sameNow]
      split
      case isTrue isThere =>
        cases world.now.after? timeout with
        | none =>
            exact recorded
        | some limit =>
            refine recorded.add ⟨some parent, some limit⟩ fun other isParent => ?_
            cases isParent
            exact recorded.sameSize ▸ isThere
      case isFalse =>
        exact recorded
  | cancel id =>
      rw [note, World.perform]
      split
      case isTrue isThere =>
        exact recorded.cancel isThere
      case isFalse notThere =>
        have sameWorld : world.cancel id world.now = world := by
          have isOutside : world.tree.contexts.length ≤ id :=
            recorded.sameSize.le.trans (Nat.le_of_not_lt notThere)
          simp [World.cancel, ContextTree.cancel, List.modify_eq_self isOutside]
        rw [sameWorld]
        exact recorded
  | advance duration =>
      exact recorded.advance duration

/-- What was done is recorded in the world in which it was done. -/
theorem recordedIn_after
    (acts : List ContextAct) :
    (Lineage.after acts).RecordedIn (World.after acts) := by
  induction acts using List.reverseRecOn with
  | nil =>
      exact ⟨rfl, rfl, nofun, nofun⟩
  | append_singleton acts act inductionHypothesis =>
      rw [Lineage.after, World.after, List.foldl_concat, List.foldl_concat]
      exact inductionHypothesis.perform act

/-- A recorded context is cancelled if it was, or one above it. -/
theorem RecordedIn.isCancelled_iff
    (recorded : lineage.RecordedIn world)
    (isThere : id < lineage.births.length) :
    world.tree.isCancelled id world.now = true ↔ lineage.Cancelled id := by
  induction id using Nat.strongRecOn with
  | ind id inductionHypothesis =>
      obtain ⟨context, found, shows⟩ :=
        recorded.shows id _ (List.getElem?_eq_getElem isThere)
      have own :
          hasCome world.now context.cancelledFrom = true ↔ id ∈ lineage.cancelled := by
        rw [recorded.sameNow]
        refine ⟨fun come => ?_, shows.cancelled⟩
        by_contra notCancelled
        rw [shows.notCancelled notCancelled] at come
        cases come
      rw [cancelled_iff (List.getElem?_eq_getElem isThere), isCancelled, cancelledFrom?]
      simp only [found, shows.parent]
      cases isParent : lineage.births[id].parent with
      | none =>
          simpa using own
      | some parent =>
          have isBefore := shows.parentFirst parent isParent
          have above := inductionHypothesis parent isBefore (isBefore.trans isThere)
          rw [isCancelled] at above
          simp only [isBefore, if_true, hasCome_earliest, Bool.or_eq_true, own, above,
            Option.some.injEq, exists_eq_left']

/-- The deadline of a recorded context has come if the context is late. -/
theorem RecordedIn.hasCome_deadline?_iff
    (recorded : lineage.RecordedIn world)
    (isThere : id < lineage.births.length) :
    hasCome world.now (world.tree.deadline? id) = true ↔ lineage.Late id := by
  induction id using Nat.strongRecOn with
  | ind id inductionHypothesis =>
      obtain ⟨context, found, shows⟩ :=
        recorded.shows id _ (List.getElem?_eq_getElem isThere)
      have own :
          hasCome world.now lineage.births[id].limit = true ↔
            ∃ limit, lineage.births[id].limit = some limit ∧ limit ≤ lineage.now := by
        rw [recorded.sameNow]
        cases lineage.births[id].limit with
        | none =>
            simp [hasCome]
        | some limit =>
            simp [hasCome]
      rw [late_iff_of_birth (List.getElem?_eq_getElem isThere), deadline?, found,
        Option.bind_some, shows.deadline, hasCome_earliest, Bool.or_eq_true, own]
      cases isParent : lineage.births[id].parent with
      | none =>
          simp [hasCome]
      | some parent =>
          have isBefore := shows.parentFirst parent isParent
          have above := inductionHypothesis parent isBefore (isBefore.trans isThere)
          simp only [Option.bind_some, above, Option.some.injEq, exists_eq_left']

/-- A recorded context has ended as cancelled if it or one above it was cancelled, and else
as late if it is late. -/
theorem RecordedIn.ended_iff
    (recorded : lineage.RecordedIn world)
    (isThere : id < lineage.births.length)
    {fault : Fault} :
    world.ended id = some fault ↔
      (fault = .cancelled ∧ lineage.Cancelled id) ∨
        (fault = .deadlineExceeded ∧ ¬ lineage.Cancelled id ∧ lineage.Late id) := by
  rw [World.ended, ContextTree.ended, ← recorded.isCancelled_iff isThere,
    ← recorded.hasCome_deadline?_iff isThere]
  have sameFault :
      ∀ other : Fault, some other = some fault ↔ fault = other :=
    fun other => Option.some_inj.trans eq_comm
  by_cases isCancelled : world.tree.isCancelled id world.now = true
  · simp [isCancelled, sameFault]
  · by_cases isLate : hasCome world.now (world.tree.deadline? id) = true
    · simp [isCancelled, isLate, sameFault]
    · simp [isCancelled, isLate]

end Recorded

end Lineage

end Runbook
