import Mathlib.Data.List.Induction
import Runbook.Proofs.Broadcast
import Runbook.Proofs.Context
import Runbook.Shutdown

namespace Runbook

/-!
# A shutdown happens once

The check whether there was a shutdown, the message and the cancellation stay in this order
whatever is done, so the channel carries one message at most.  Before that message nobody has
anything to read.  After it, those who had subscribed by then have it to read until they do.

The contexts stand apart from that: a context is made below the root and never below another
run context, so a run context has ended if it was itself cancelled or there was a shutdown.
-/

namespace Shutdown

/-- What is done with a shutdown.  Run contexts and subscribers are numbered in the order in
which they come. -/
inductive Act where
  | shutdown (reason : ShutdownReason)
  | subscribe
  | addRunContext
  | cancelRunContext (run : Nat)
  | receive (subscriber : Nat)
  deriving DecidableEq, Repr

/-- A shutdown, and who has received which reason from it. -/
structure Record where
  state : Shutdown := {}
  received : List (Nat × ShutdownReason) := []
  deriving DecidableEq, Repr

namespace Record

/-- Do something, and note a reason that was received. -/
def perform (record : Record) : Act → Record
  | .shutdown reason => { record with state := record.state.shutdown reason }
  | .subscribe => { record with state := record.state.subscribe }
  | .addRunContext => { record with state := record.state.addRunContext }
  | .cancelRunContext run => { record with state := record.state.cancelRunContext run }
  | .receive subscriber =>
      let (reason?, state) := record.state.receive subscriber
      ⟨state, record.received ++ (reason?.map (subscriber, ·)).toList⟩

/-- What there is after some acts. -/
def after (acts : List Act) : Record := acts.foldl perform {}

/-- The reasons that a subscriber has received, in this order. -/
def receivedBy (record : Record) (subscriber : Nat) : List ShutdownReason :=
  (record.received.filter (·.1 = subscriber)).map (·.2)

theorem after_concat
    (acts : List Act)
    (act : Act) :
    after (acts ++ [act]) = (after acts).perform act :=
  List.foldl_concat perform {} act acts

end Record

/-- A shutdown is among the acts. -/
def Happened (acts : List Act) : Prop :=
  ∃ reason, .shutdown reason ∈ acts

/-- A run context was made and then cancelled on its own. -/
def CancelledAlone (acts : List Act) (run : Nat) : Prop :=
  ∃ earlier later, acts = earlier ++ .cancelRunContext run :: later ∧
    run < earlier.count .addRunContext

variable {acts : List Act} {act : Act} {run : Nat}

theorem happened_concat :
    Happened (acts ++ [act]) ↔ Happened acts ∨ ∃ reason, act = .shutdown reason := by
  simp only [Happened, List.mem_append, List.mem_singleton, exists_or, eq_comm]

theorem cancelledAlone_concat :
    CancelledAlone (acts ++ [act]) run ↔
      CancelledAlone acts run ∨
        (act = .cancelRunContext run ∧ run < acts.count .addRunContext) := by
  constructor
  · rintro ⟨earlier, later, isSplit, isThere⟩
    rcases List.eq_nil_or_concat later with rfl | ⟨between, last, rfl⟩
    · obtain ⟨rfl, isLast⟩ := List.append_inj' isSplit rfl
      exact Or.inr ⟨List.singleton_inj.mp isLast, isThere⟩
    · rw [List.concat_eq_append, ← List.cons_append, ← List.append_assoc] at isSplit
      obtain ⟨rfl, _⟩ := List.append_inj' isSplit rfl
      exact Or.inl ⟨earlier, between, rfl, isThere⟩
  · rintro (⟨earlier, later, rfl, isThere⟩ | ⟨rfl, isThere⟩)
    · exact ⟨earlier, later ++ [act], by simp, isThere⟩
    · exact ⟨acts, [], rfl, isThere⟩

/-! ## The contexts -/

/-- Cancelled from the beginning of time on, or not at all; a shutdown has no clock. -/
def mark (isCancelled : Bool) : Option Instant :=
  if isCancelled then some 0 else none

/-- The root and the run contexts below it, each cancelled or not. -/
def contextTree (root : Bool) (runs : List Bool) : ContextTree :=
  ⟨{ cancelledFrom := mark root } ::
    runs.map fun isCancelled => { parent := some 0, cancelledFrom := mark isCancelled }⟩

section Contexts

variable (root : Bool) (runs : List Bool)

theorem hasCome_mark
    (isCancelled : Bool) :
    ContextTree.hasCome 0 (mark isCancelled) = isCancelled := by
  cases isCancelled <;> rfl

theorem earliest_mark
    (isCancelled : Bool) :
    earliest (mark isCancelled) (some 0) = mark true := by
  cases isCancelled <;> rfl

theorem child_contextTree :
    (contextTree root runs).child rootContext = contextTree root (runs ++ [false]) := by
  simp [contextTree, ContextTree.child, ContextTree.below, earliest, ContextTree.deadline?,
    rootContext, mark]

theorem cancel_root_contextTree :
    (contextTree root runs).cancel rootContext 0 = contextTree true runs := by
  simp [contextTree, ContextTree.cancel, rootContext, earliest_mark]

theorem cancel_run_contextTree
    (run : Nat) :
    (contextTree root runs).cancel (run + 1) 0 = contextTree root (runs.set run true) := by
  simp only [contextTree, ContextTree.cancel, List.modify_succ_cons, ContextTree.mk.injEq,
    List.cons.injEq, true_and]
  refine List.ext_getElem? fun other => ?_
  simp only [List.getElem?_modify, List.getElem?_map, List.getElem?_set']
  cases runs[other]? with
  | none =>
      simp
  | some isCancelled =>
      by_cases isSame : run = other <;> simp [isSame, earliest_mark]

theorem cancelledFrom?_root_contextTree :
    (contextTree root runs).cancelledFrom? rootContext = mark root := by
  rw [ContextTree.cancelledFrom?]
  rfl

theorem isCancelled_root_contextTree :
    (contextTree root runs).isCancelled rootContext 0 = root := by
  rw [ContextTree.isCancelled, cancelledFrom?_root_contextTree, hasCome_mark]

/-- A run context has ended if it was cancelled or the root was. -/
theorem ended_run_contextTree
    (run : Nat) :
    (contextTree root runs).ended (run + 1) 0 =
      runs[run]?.bind fun isCancelled =>
        if isCancelled || root then some .cancelled else none := by
  have found :
      (contextTree root runs).contexts[run + 1]? =
        runs[run]?.map fun isCancelled =>
          { parent := some 0, cancelledFrom := mark isCancelled } := by
    rw [contextTree, List.getElem?_cons_succ, List.getElem?_map]
  have noDeadline : (contextTree root runs).deadline? (run + 1) = none := by
    rw [ContextTree.deadline?, found]
    cases runs[run]? <;> rfl
  have isCancelled_run :
      (contextTree root runs).isCancelled (run + 1) 0 =
        runs[run]?.any fun isCancelled => isCancelled || root := by
    rw [ContextTree.isCancelled, ContextTree.cancelledFrom?, found]
    cases runs[run]? with
    | none =>
        rfl
    | some isCancelled =>
        have atRoot := cancelledFrom?_root_contextTree root runs
        rw [rootContext] at atRoot
        simp [ContextTree.hasCome_earliest, hasCome_mark, atRoot]
  rw [ContextTree.ended, isCancelled_run, noDeadline]
  cases runs[run]? <;> rfl

end Contexts

/-- Whether each run context was cancelled on its own, so far. -/
def cancelledRuns (acts : List Act) : List Bool :=
  acts.foldl note []
where
  /-- Note a run context, or its cancellation. -/
  note (runs : List Bool) : Act → List Bool
    | .addRunContext => runs ++ [false]
    | .cancelRunContext run => runs.set run true
    | _ => runs

theorem cancelledRuns_concat
    (acts : List Act)
    (act : Act) :
    cancelledRuns (acts ++ [act]) = cancelledRuns.note (cancelledRuns acts) act :=
  List.foldl_concat cancelledRuns.note [] act acts

theorem length_cancelledRuns
    (acts : List Act) :
    (cancelledRuns acts).length = acts.count .addRunContext := by
  induction acts using List.reverseRecOn with
  | nil =>
      rfl
  | append_singleton acts act inductionHypothesis =>
      rw [cancelledRuns_concat, List.count_append, ← inductionHypothesis]
      cases act <;> simp [cancelledRuns.note]

theorem getElem?_cancelledRuns_iff :
    (cancelledRuns acts)[run]? = some true ↔ CancelledAlone acts run := by
  induction acts using List.reverseRecOn with
  | nil =>
      simp [cancelledRuns, CancelledAlone]
  | append_singleton acts act inductionHypothesis =>
      rw [cancelledRuns_concat, cancelledAlone_concat, ← inductionHypothesis,
        ← length_cancelledRuns]
      cases act with
      | addRunContext =>
          simp only [cancelledRuns.note, List.getElem?_append, List.getElem?_singleton]
          split
          case isTrue => simp
          case isFalse isOutside =>
            simp [List.getElem?_eq_none (Nat.le_of_not_lt isOutside)]
      | cancelRunContext other =>
          simp only [cancelledRuns.note, List.getElem?_set, Act.cancelRunContext.injEq]
          by_cases isSame : other = run
          · subst isSame
            have isThere :
                (cancelledRuns acts)[other]? = some true → other < (cancelledRuns acts).length :=
              fun found => (List.getElem?_eq_some_iff.mp found).1
            simpa using isThere
          · simp [isSame]
      | shutdown reason =>
          simp [cancelledRuns.note]
      | subscribe =>
          simp [cancelledRuns.note]
      | receive subscriber =>
          simp [cancelledRuns.note]

/-- The contexts are those that were made, and each is cancelled if it was. -/
theorem tree_after
    (acts : List Act) :
    ∃ root, (Record.after acts).state.tree = contextTree root (cancelledRuns acts) ∧
      (root = true ↔ Happened acts) := by
  induction acts using List.reverseRecOn with
  | nil =>
      exact ⟨false, rfl, by simp [Happened]⟩
  | append_singleton acts act inductionHypothesis =>
      obtain ⟨root, isTree, isRoot⟩ := inductionHypothesis
      rw [Record.after_concat, cancelledRuns_concat]
      simp only [happened_concat, ← isRoot]
      cases act with
      | shutdown reason =>
          refine ⟨true, ?_, by simp⟩
          simp only [Record.perform, Shutdown.shutdown, isShutdown, isTree,
            isCancelled_root_contextTree, cancelledRuns.note]
          cases root with
          | true =>
              rw [if_pos rfl, isTree]
          | false =>
              exact cancel_root_contextTree false _
      | subscribe =>
          exact ⟨root, isTree, by simp⟩
      | addRunContext =>
          refine ⟨root, ?_, by simp⟩
          rw [Record.perform, addRunContext, isTree, child_contextTree, cancelledRuns.note]
      | cancelRunContext run =>
          refine ⟨root, ?_, by simp⟩
          rw [Record.perform, cancelRunContext, isTree, cancel_run_contextTree,
            cancelledRuns.note]
      | receive subscriber =>
          exact ⟨root, isTree, by simp⟩

theorem isShutdown_after_iff :
    (Record.after acts).state.isShutdown = true ↔ Happened acts := by
  obtain ⟨root, isTree, isRoot⟩ := tree_after acts
  rw [isShutdown, isTree, isCancelled_root_contextTree, isRoot]

theorem runContextEnded_after_iff
    (fault : Fault) :
    (Record.after acts).state.runContextEnded run = some fault ↔
      fault = .cancelled ∧ run < acts.count .addRunContext ∧
        (Happened acts ∨ CancelledAlone acts run) := by
  obtain ⟨root, isTree, isRoot⟩ := tree_after acts
  rw [runContextEnded, isTree, ended_run_contextTree, ← isRoot, ← getElem?_cancelledRuns_iff,
    ← length_cancelledRuns]
  cases found : (cancelledRuns acts)[run]? with
  | none =>
      have isOutside := List.getElem?_eq_none_iff.mp found
      simp [Nat.not_lt.mpr isOutside]
  | some isCancelled =>
      have isThere := (List.getElem?_eq_some_iff.mp found).1
      cases isCancelled <;> cases root <;> simp [isThere, eq_comm]

/-! ## The reasons -/

/-- Before a shutdown nobody has anything to read. -/
structure Waits (acts : List Act) (record : Record) : Prop where
  inStep :
    record.state.channel.InStep
  capacity :
    record.state.channel.capacity = 1
  subscribers :
    record.state.channel.positions.length = acts.count .subscribe
  unread :
    ∀ subscriber, record.state.channel.unread subscriber = []
  received :
    ∀ subscriber, record.receivedBy subscriber = []

/-- After a shutdown those who had subscribed by then have read its reason, or have yet to. -/
structure Tells (reason : ShutdownReason) (early : Nat) (later : List Act)
    (record : Record) : Prop where
  unread :
    ∀ subscriber, record.state.channel.unread subscriber =
      if subscriber < early ∧ .receive subscriber ∉ later then [reason] else []
  received :
    ∀ subscriber, record.receivedBy subscriber =
      if subscriber < early ∧ .receive subscriber ∈ later then [reason] else []

theorem receivedBy_perform_receive
    (record : Record)
    (subscriber other : Nat) :
    (record.perform (.receive subscriber)).receivedBy other =
      record.receivedBy other ++
        if other = subscriber then (record.state.channel.unread subscriber).head?.toList
        else [] := by
  rw [← record.state.channel.receive_fst subscriber]
  simp only [Record.perform, receive, Record.receivedBy, List.filter_append, List.map_append]
  cases (record.state.channel.receive subscriber).1 with
  | none =>
      simp
  | some reason =>
      by_cases isSame : other = subscriber
      · simp [isSame]
      · simp [isSame, Ne.symm isSame]

theorem unread_perform_receive
    (record : Record)
    (subscriber other : Nat) :
    (record.perform (.receive subscriber)).state.channel.unread other =
      if other = subscriber then (record.state.channel.unread subscriber).tail
      else record.state.channel.unread other :=
  record.state.channel.unread_receive subscriber other

theorem waits_after
    (notYet : ¬ Happened acts) :
    Waits acts (Record.after acts) := by
  induction acts using List.reverseRecOn with
  | nil =>
      exact ⟨nofun, rfl, rfl, fun _ => rfl, fun _ => rfl⟩
  | append_singleton acts act inductionHypothesis =>
      rw [happened_concat, not_or] at notYet
      have waits := inductionHypothesis notYet.1
      rw [Record.after_concat]
      cases act with
      | shutdown reason =>
          exact absurd ⟨reason, rfl⟩ notYet.2
      | subscribe =>
          refine ⟨waits.inStep.join, waits.capacity, ?_, ?_, waits.received⟩
          · simp [Record.perform, subscribe, Broadcast.join, waits.subscribers]
          · exact fun subscriber => (Broadcast.unread_join _ _).trans (waits.unread subscriber)
      | addRunContext =>
          exact ⟨waits.inStep, waits.capacity, waits.subscribers.trans (by simp), waits.unread,
            waits.received⟩
      | cancelRunContext run =>
          exact ⟨waits.inStep, waits.capacity, waits.subscribers.trans (by simp), waits.unread,
            waits.received⟩
      | receive subscriber =>
          refine ⟨waits.inStep.receive subscriber,
            (Broadcast.capacity_receive _ _).trans waits.capacity,
            (Broadcast.length_positions_receive _ _).trans (waits.subscribers.trans (by simp)),
            fun other => ?_, fun other => ?_⟩
          · simp [unread_perform_receive, waits.unread]
          · simp [receivedBy_perform_receive, waits.unread, waits.received]

/-- The first shutdown sends its reason to those who have subscribed. -/
theorem tells_shutdown
    (notYet : ¬ Happened acts)
    (reason : ShutdownReason) :
    Tells reason (acts.count .subscribe) [] ((Record.after acts).perform (.shutdown reason)) := by
  have waits := waits_after notYet
  have notShutDown : (Record.after acts).state.isShutdown = false :=
    Bool.eq_false_iff.mpr fun isShutdown => notYet (isShutdown_after_iff.mp isShutdown)
  have isSent :
      ((Record.after acts).perform (.shutdown reason)).state.channel =
        (Record.after acts).state.channel.send reason := by
    simp [Record.perform, Shutdown.shutdown, notShutDown]
  refine ⟨fun subscriber => ?_, fun subscriber => ?_⟩
  · rw [isSent]
    by_cases isEarly : subscriber < acts.count .subscribe
    · rw [Broadcast.unread_send waits.inStep (waits.subscribers ▸ isEarly), waits.unread,
        waits.capacity]
      simp [isEarly, List.rtake]
    · have notJoined :
          ((Record.after acts).state.channel.send reason).positions.length ≤ subscriber :=
        waits.subscribers.le.trans (Nat.le_of_not_lt isEarly)
      rw [Broadcast.unread_of_le notJoined, if_neg fun isTold => isEarly isTold.1]
  · exact (waits.received subscriber).trans (by simp)

/-- Nothing changes with an act that sends nothing and by which nobody reads. -/
theorem Tells.of_same
    {reason : ShutdownReason}
    {early : Nat}
    {later : List Act}
    {record next : Record}
    (tells : Tells reason early later record)
    (noReceive : ∀ subscriber, act ≠ .receive subscriber)
    (sameUnread : next.state.channel.unread = record.state.channel.unread)
    (sameReceived : next.received = record.received) :
    Tells reason early (later ++ [act]) next := by
  have sameMember :
      ∀ subscriber, .receive subscriber ∈ later ++ [act] ↔ .receive subscriber ∈ later := by
    intro subscriber
    simp [(noReceive subscriber).symm]
  refine ⟨fun subscriber => ?_, fun subscriber => ?_⟩
  · simp only [sameUnread, sameMember, tells.unread]
  · simp only [Record.receivedBy, sameReceived, sameMember]
    exact tells.received subscriber

/-- Who reads has read the reason, whether it was there to read or had been read before. -/
theorem Tells.receive
    {reason : ShutdownReason}
    {early : Nat}
    {later : List Act}
    {record : Record}
    (tells : Tells reason early later record)
    (subscriber : Nat) :
    Tells reason early (later ++ [.receive subscriber])
      (record.perform (.receive subscriber)) := by
  refine ⟨fun other => ?_, fun other => ?_⟩
  · rw [unread_perform_receive, tells.unread, tells.unread]
    by_cases isSame : other = subscriber
    · by_cases isTold : subscriber < early ∧ .receive subscriber ∉ later <;>
        simp [isSame, isTold]
    · simp [isSame]
  · rw [receivedBy_perform_receive, tells.unread, tells.received]
    by_cases isSame : other = subscriber
    · subst isSame
      by_cases isEarly : other < early
      · by_cases isOver : .receive other ∈ later <;> simp [isEarly, isOver]
      · simp [isEarly]
    · simp [isSame]

theorem tells_after
    {before : List Act}
    (notYet : ¬ Happened before)
    (reason : ShutdownReason)
    (later : List Act) :
    Tells reason (before.count .subscribe) later
      (Record.after (before ++ .shutdown reason :: later)) := by
  induction later using List.reverseRecOn with
  | nil =>
      rw [Record.after_concat]
      exact tells_shutdown notYet reason
  | append_singleton later act tells =>
      rw [← List.cons_append, ← List.append_assoc, Record.after_concat]
      cases act with
      | shutdown again =>
          have isShutdown :
              (Record.after (before ++ .shutdown reason :: later)).state.isShutdown = true :=
            isShutdown_after_iff.mpr ⟨reason, by simp⟩
          refine tells.of_same nofun ?_ rfl
          simp [Record.perform, Shutdown.shutdown, isShutdown]
      | subscribe =>
          exact tells.of_same nofun (funext (Broadcast.unread_join _)) rfl
      | addRunContext =>
          exact tells.of_same nofun rfl rfl
      | cancelRunContext run =>
          exact tells.of_same nofun rfl rfl
      | receive subscriber =>
          exact tells.receive subscriber

/-! ## Whatever is done -/

/-- How a shutdown stands after some acts, and what each subscriber has received. -/
structure HappensOnce (acts : List Act) : Prop where
  isShutdown_iff :
    (Record.after acts).state.isShutdown = true ↔ Happened acts
  ended_iff :
    ∀ run fault, (Record.after acts).state.runContextEnded run = some fault ↔
      fault = .cancelled ∧ run < acts.count .addRunContext ∧
        (Happened acts ∨ CancelledAlone acts run)
  nothing :
    ¬ Happened acts → ∀ subscriber, (Record.after acts).receivedBy subscriber = []
  once :
    ∀ before reason later, acts = before ++ .shutdown reason :: later → ¬ Happened before →
      ∀ subscriber, (Record.after acts).receivedBy subscriber =
        if subscriber < before.count .subscribe ∧ .receive subscriber ∈ later then [reason]
        else []

/--
Whatever is done with a shutdown, it happens once.  It has happened if there was a shutdown
among the acts, whichever run contexts were cancelled.  A run context has ended if there was
one, before or after the context was made, or if the context was itself cancelled, and then it
has ended as cancelled.  Without a shutdown nobody receives anything.  With one, those who had
subscribed before the first have received its reason, once and nothing else, as soon as they
have asked for it since, and those who subscribed later have received nothing.
-/
theorem happensOnce_after
    (acts : List Act) :
    HappensOnce acts where
  isShutdown_iff := isShutdown_after_iff
  ended_iff := fun _ => runContextEnded_after_iff
  nothing := fun notYet => (waits_after notYet).received
  once := by
    rintro before reason later rfl notYet
    exact (tells_after notYet reason later).received

example :
    (Record.after
      [.subscribe, .receive 0, .shutdown .signal, .subscribe, .shutdown .user, .receive 0,
        .receive 1, .receive 0]).received = [(0, .signal)] := by
  decide +kernel

end Shutdown

end Runbook
