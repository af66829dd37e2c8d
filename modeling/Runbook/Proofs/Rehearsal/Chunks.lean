import Runbook.Proofs.Chunks.Exchange
import Runbook.Proofs.Rehearsal.Bystanders
import Runbook.Proofs.Rehearsal.Refinement

namespace Runbook

/-!
# Rehearsing chunks

A rehearsal carries out chunks as they may be carried out: each chunk that begins follows a
course of it, and the calls of the others are settled with the reason for which the context
above has ended.  Whatever becomes of a chunk, the context above stands as time alone has it,
and only at an instant at which no batch can be begun is there nothing to return.
-/

namespace Relay

variable {policy : RetryPolicy} {config : BatchConfig} {latest : Instant}

/-- While the context above goes on, one chunk after the other may begin and come to its
end. -/
theorem reaches_past
    {courses : List Course}
    (admits : config.Admits latest)
    (alone : ∀ course ∈ courses, Course.Reaches policy (.ofChunk config course.calls) course)
    (allOver : ∀ course ∈ courses, course.IsOver)
    (past : List Course)
    (rest : List (List Call)) :
    Reaches policy config latest
      { past := past, coming := courses.map Course.calls ++ rest }
      { past := past ++ courses, coming := rest } := by
  induction courses generalizing past with
  | nil =>
      rw [List.append_nil]
      exact .refl
  | cons course courses inductionHypothesis =>
      have first : Reaches policy config latest
          { past := past, coming := (course :: courses).map Course.calls ++ rest }
          { past := past ++ [course], coming := courses.map Course.calls ++ rest } :=
        reaches_through rfl rfl rfl (Nat.le_refl latest) admits
          (alone course List.mem_cons_self) (allOver course List.mem_cons_self)
      have others :=
        inductionHypothesis (fun other isRest => alone other (List.mem_cons_of_mem _ isRest))
          (fun other isRest => allOver other (List.mem_cons_of_mem _ isRest)) (past ++ [course])
      rw [List.append_cons]
      exact first.trans others

end Relay

namespace Rehearsal

namespace World

variable {setup : Setup} {context : Nat} {world later : World}

/-- Whatever has happened, a context stands as time alone has it. -/
structure Outlasts (context : Nat) (world later : World) : Prop where
  inTree :
    context < later.tree.size
  sameEnd : ∀ now,
    later.tree.ended context now = world.tree.ended context now

namespace Outlasts

theorem of_sameTree
    (inTree : context < world.tree.size)
    (sameTree : later.tree = world.tree) :
    world.Outlasts context later := by
  refine ⟨?_, fun now => ?_⟩
  · rw [sameTree]
    exact inTree
  · rw [sameTree]

theorem trans
    {middle : World}
    (first : world.Outlasts context middle)
    (second : middle.Outlasts context later) :
    world.Outlasts context later :=
  ⟨second.inTree, fun now => (second.sameEnd now).trans (first.sameEnd now)⟩

/-- A context outlasts what is done under a context that was made below it. -/
theorem of_batchContext
    {id : Nat}
    {begun : World}
    (inTree : context < world.tree.size)
    (made : world.batchContext setup context = some (id, begun))
    (drifts : begun.Drifts id later) :
    world.Outlasts context later := by
  obtain ⟨rfl, limit, rfl⟩ := below_of_batchContext made
  refine ⟨?_, fun now => ?_⟩
  · rw [drifts.sameSize, ContextTree.size_below]
    exact Nat.lt_succ_of_lt inTree
  · rw [ContextTree.ended, ContextTree.isCancelled, drifts.cancelledFrom?_eq inTree,
      drifts.deadline?_eq, ← ContextTree.isCancelled, ← ContextTree.ended]
    exact ContextTree.ended_below inTree context limit now

end Outlasts

theorem tree_waitUntil
    (world : World)
    (context : Nat)
    (instant : Instant) :
    (world.waitUntil context instant).2.tree = world.tree := by
  unfold waitUntil pass
  split
  · rfl
  · dsimp only
    split <;> rfl

/-- A batch gets a context of its own unless its timeout ends beyond the last instant. -/
theorem isSome_batchContext_iff
    (setup : Setup)
    (context : Nat)
    (world : World) :
    (world.batchContext setup context).isSome = true ↔ setup.batch.limit? world.now ≠ none := by
  rw [batchContext, Option.isSome_map, Option.isSome_iff_ne_none]

/-- A batch can be begun exactly where it gets a context of its own and its permits. -/
theorem admits_iff_of_permits
    (setup : Setup)
    (context : Nat)
    (batch : Batch)
    (limit : Nat)
    (permits : batch.permits = max limit 1)
    (world : World) :
    { setup.batch with maxConcurrency := limit }.Admits world.now ↔
      (world.batchContext setup context).isSome = true ∧
        (Execution.batch batch).breaksDown = false := by
  rw [BatchConfig.Admits, isSome_batchContext_iff, Execution.breaksDown,
    decide_eq_false_iff_not, Nat.not_lt, permits, and_comm]
  -- The timeout is that of the setup.
  rfl

theorem admits_iff
    (setup : Setup)
    (context : Nat)
    (chunk : List Call)
    (world : World) :
    setup.batch.Admits world.now ↔
      (world.batchContext setup context).isSome = true ∧
        (Execution.batch (Execution.chunkBatch setup.batch chunk)).breaksDown = false :=
  admits_iff_of_permits setup context _ setup.batch.maxConcurrency rfl world

/-- What may become of chunks when it is the turn of the first: they are left, since the
context has ended; the machinery breaks down; or the first is carried out, and then the
others. -/
inductive Turn (setup : Setup) (context : Nat) (chunk : List Call) (rest : List (List Call))
    (rested : World) : Carried × World → Prop where
  | left {fault : Fault} :
      rested.ended context = some fault →
      Turn setup context chunk rest rested
        (.calls ((chunk :: rest).flatten.map fun call => call.settle (.error fault)), rested)
  | breaksDown {broken : World} :
      ¬ setup.batch.Admits rested.now →
      broken.now = rested.now →
      Turn setup context chunk rest rested (.brokeDown, broken)
  | goesOn {id : Nat} {begun later : World} {more : List Call} :
      rested.batchContext setup context = some (id, begun) →
      carryOutChunks setup context false rest
          (Scene.perform setup id (Execution.chunkBatch setup.batch chunk) begun).2 =
        (.calls more, later) →
      Turn setup context chunk rest rested
        (.calls
          ((Scene.perform setup id (Execution.chunkBatch setup.batch chunk) begun).1 ++ more),
          later)
  | goesWrong {id : Nat} {begun later : World} {carried : Carried} :
      rested.batchContext setup context = some (id, begun) →
      (∀ calls, carried ≠ .calls calls) →
      carryOutChunks setup context false rest
          (Scene.perform setup id (Execution.chunkBatch setup.batch chunk) begun).2 =
        (carried, later) →
      Turn setup context chunk rest rested (carried, later)

/-- It is the turn of the first chunk after the pause, which leaves the contexts as they
are. -/
theorem exists_turn
    (setup : Setup)
    (context : Nat)
    (first : Bool)
    (chunk : List Call)
    (rest : List (List Call))
    (world : World) :
    ∃ rested,
      rested.tree = world.tree ∧
        Turn setup context chunk rest rested
          (carryOutChunks setup context first (chunk :: rest) world) := by
  simp only [carryOutChunks]
  generalize paused :
    (if first || setup.batch.pause == 0 then world
      else (world.waitUntil context (world.timer setup.batch.pause)).2) = rested
  refine ⟨rested, ?_, ?_⟩
  · rw [← paused]
    split
    · rfl
    · exact tree_waitUntil world context _
  have admits := admits_iff setup context chunk rested
  split
  case h_1 fault hasEnded =>
    exact .left hasEnded
  case h_2 =>
    split
    case h_1 noContext =>
      refine .breaksDown (fun isAdmitted => ?_) rfl
      rw [admits, noContext] at isAdmitted
      exact absurd isAdmitted.1 Bool.false_ne_true
    case h_2 id begun made =>
      split
      case isTrue breaksDown =>
        obtain ⟨-, limit, isBegun⟩ := below_of_batchContext made
        refine .breaksDown (fun isAdmitted => ?_) (by rw [isBegun])
        rw [admits, breaksDown] at isAdmitted
        exact absurd isAdmitted.2.symm Bool.false_ne_true
      case isFalse =>
        split
        case h_1 more later isRest =>
          exact .goesOn made isRest
        case h_2 carried notCalls =>
          exact .goesWrong made (fun calls isCalls => notCalls calls _ (Prod.ext isCalls rfl)) rfl

/-- What a rehearsal makes of chunks: which of them began and how they went, and which were
left. -/
structure FollowsChunks (setup : Setup) (context : Nat) (chunks : List (List Call))
    (world : World) (answers : List Call) (later : World) (courses : List Course)
    (left : List (List Call)) (reason : Fault) : Prop where
  divided :
    courses.map Course.calls ++ left = chunks
  alone : ∀ course ∈ courses,
    Course.Reaches setup.policy (.ofChunk setup.batch course.calls) course
  answered :
    answers =
      courses.flatMap Course.results ++
        left.flatten.map fun call => call.settle (.error reason)
  leftBehind :
    left ≠ [] → later.ended context = some reason
  outlasts :
    world.Outlasts context later

/-- A chunk that begins goes before those that follow. -/
theorem FollowsChunks.cons
    {chunk : List Call}
    {chunks left : List (List Call)}
    {answers : List Call}
    {courses : List Course}
    {reason : Fault}
    {middle : World}
    {course : Course}
    (reaches : Course.Reaches setup.policy (.ofChunk setup.batch chunk) course)
    (outlasts : world.Outlasts context middle)
    (follows : FollowsChunks setup context chunks middle answers later courses left reason) :
    FollowsChunks setup context (chunk :: chunks) world (course.results ++ answers) later
      (course :: courses) left reason where
  divided := by
    rw [List.map_cons, List.cons_append, follows.divided, Course.calls_of_reaches reaches]
  alone other isBegun := by
    rcases List.mem_cons.mp isBegun with isFirst | isLater
    · rw [isFirst, Course.calls_of_reaches reaches]
      exact reaches
    · exact follows.alone other isLater
  answered := by
    rw [follows.answered, List.flatMap_cons, List.append_assoc]
  leftBehind := follows.leftBehind
  outlasts := outlasts.trans follows.outlasts

/-- The calls that a rehearsal returns for chunks are those after courses of these chunks, as
far as they began: what holds of all courses holds of every rehearsal. -/
theorem carryOutChunks_follows
    (chunks : List (List Call))
    (first : Bool)
    {world : World}
    (inTree : context < world.tree.size)
    {answers : List Call}
    (carried : carryOutChunks setup context first chunks world = (.calls answers, later)) :
    ∃ courses left reason,
      FollowsChunks setup context chunks world answers later courses left reason := by
  induction chunks generalizing first world answers with
  | nil =>
      cases carried
      exact ⟨[], [], .cancelled, rfl, fun _ isBegun => (List.not_mem_nil isBegun).elim, rfl,
        fun isLeft => (isLeft rfl).elim, .of_sameTree inTree rfl⟩
  | cons chunk rest inductionHypothesis =>
      obtain ⟨rested, sameTree, turn⟩ :=
        exists_turn setup context first chunk rest world
      have outlasts : world.Outlasts context rested :=
        .of_sameTree inTree sameTree
      rw [carried] at turn
      cases turn with
      | @left fault hasEnded =>
          exact ⟨[], chunk :: rest, fault, rfl,
            fun _ isBegun => (List.not_mem_nil isBegun).elim, rfl, fun _ => hasEnded, outlasts⟩
      | @goesOn id begun _ more made isRest =>
          have sameAwaited := Course.length_awaited_independent chunk
          have sameRanks : (Schedule.independent chunk.length).ranks.length = chunk.length :=
            List.length_range
          obtain ⟨course, reaches, sameCalls, -⟩ :=
            Scene.perform_follows setup sameRanks sameAwaited
              (max setup.batch.maxConcurrency 1) (!setup.batch.continueOnError)
              (inTree_of_batchContext made)
          have outlastsChunk :=
            Outlasts.of_batchContext outlasts.inTree made
              (Scene.drifts_perform setup id (Execution.chunkBatch setup.batch chunk) begun)
          obtain ⟨courses, left, reason, follows⟩ :=
            inductionHypothesis false outlastsChunk.inTree isRest
          refine ⟨course :: courses, left, reason, ?_⟩
          rw [Execution.chunkBatch, sameCalls]
          exact follows.cons reaches (outlasts.trans outlastsChunk)
      | goesWrong _ notCalls _ =>
          exact (notCalls _ rfl).elim

/-- Chunks come back settled, unless there comes an instant at which no batch can be begun. -/
theorem exists_calls_or_breaksDown
    (setup : Setup)
    (context : Nat)
    (chunks : List (List Call))
    (first : Bool)
    (world : World) :
    (∃ answers, (carryOutChunks setup context first chunks world).1 = .calls answers) ∨
      (carryOutChunks setup context first chunks world).1 = .brokeDown ∧
        ¬ setup.batch.Admits (carryOutChunks setup context first chunks world).2.now := by
  induction chunks generalizing first world with
  | nil =>
      exact Or.inl ⟨[], rfl⟩
  | cons chunk rest inductionHypothesis =>
      obtain ⟨rested, -, turn⟩ := exists_turn setup context first chunk rest world
      generalize carryOutChunks setup context first (chunk :: rest) world = carried at turn
      cases turn with
      | left _ =>
          exact Or.inl ⟨_, rfl⟩
      | breaksDown notAdmits sameNow =>
          refine Or.inr ⟨rfl, ?_⟩
          rw [sameNow]
          exact notAdmits
      | goesOn _ _ =>
          exact Or.inl ⟨_, rfl⟩
      | @goesWrong id begun _ _ _ notCalls isRest =>
          have others :=
            inductionHypothesis false
              (Scene.perform setup id (Execution.chunkBatch setup.batch chunk) begun).2
          rw [isRest] at others
          exact others

/-- Where the chunks that began come to their end, what a rehearsal makes of chunks is one of
the things that may become of them. -/
theorem FollowsChunks.exists_relay
    {chunks left : List (List Call)}
    {answers : List Call}
    {courses : List Course}
    {reason : Fault}
    {latest : Instant}
    (follows : FollowsChunks setup context chunks world answers later courses left reason)
    (allOver : ∀ course ∈ courses, course.IsOver)
    (admits : setup.batch.Admits latest) :
    ∃ relay,
      Relay.Reaches setup.policy setup.batch latest { coming := chunks } relay ∧
        relay.IsOver ∧ relay.results = answers := by
  have begun := Relay.reaches_past admits follows.alone allOver [] left
  rw [follows.divided, List.nil_append] at begun
  rw [follows.answered]
  cases left with
  | nil =>
      exact ⟨_, begun, ⟨rfl, rfl⟩, rfl⟩
  | cons chunk rest =>
      have hasEnded : later.ended context = some reason :=
        follows.leftBehind (List.cons_ne_nil _ _)
      have ends :=
        begun.tail (.ends (.first (ContextTree.endsContext_of_ended hasEnded)))
      exact ⟨_, ends.tail (.step (.leave rfl (List.cons_ne_nil _ _) rfl)), ⟨rfl, rfl⟩, rfl⟩

/-- What a rehearsal returns for calls in chunks is what becomes of them chunk by chunk, with
each call settled in its place. -/
theorem carryOutInChunks_follows
    (inTree : context < world.tree.size)
    {calls answers : List Call}
    {size : Nat}
    (carried : world.carryOutInChunks setup context calls size = (.calls answers, later)) :
    (∃ courses left reason,
      FollowsChunks setup context
        (Execution.chunks (Execution.chunkSize setup.batch size) calls) world answers later
        courses left reason) ∧
      List.Forall₂ (fun call result => ∃ outcome, result = call.settle outcome) calls
        answers := by
  obtain ⟨courses, left, reason, follows⟩ := carryOutChunks_follows _ true inTree carried
  have settled := Course.settled_of_chunks follows.alone left reason
  rw [follows.divided, Execution.flatten_chunks, ← follows.answered] at settled
  exact ⟨⟨courses, left, reason, follows⟩, settled⟩

/-- A call that was settled before stays as it is, though the context has ended; and where
there cannot be that many permits, no chunk begins. -/
theorem settled_stays_of_cancelled :
    let settled : Call := (Call.ofTool "q" .null).settle (.error (.toolNotFound "q"))
    let cancelled : World := { tree := (ContextTree.root {}).cancel 0 0 }
    let live : World := { tree := .root {} }
    cancelled.ended 0 = some .cancelled ∧
      (cancelled.carryOutInChunks {} 0 [settled] 1).1 = .calls [settled] ∧
        settled.fault? = some (.toolNotFound "q") ∧
          (live.carryOutInChunks { batch := { maxConcurrency := 2305843009213693952 } } 0
            [.ofTool "q" .null] 1).1 = .brokeDown := by
  decide +kernel

end World

end Rehearsal

end Runbook
