import Mathlib.Data.List.Forall2
import Runbook.Proofs.Batch.Completion
import Runbook.Proofs.Batch.Concurrency

namespace Runbook

/-!
# Chunks one after the other

Calls in chunks are handed from one batch to the next.  Each chunk runs under a context of
its own below the given one, so that nothing but the end of the given context outlasts it.
When that has ended before a chunk begins, or in the pause before it, the calls that are left
are settled with the reason, and none of them is begun.
-/

namespace Execution

variable {size : Nat} {calls chunk : List Call}

/-- Chunks leave out no call and keep the order of the calls. -/
theorem flatten_chunks
    (size : Nat)
    (calls : List Call) :
    (chunks size calls).flatten = calls := by
  fun_induction chunks size calls with
  | case1 =>
      rfl
  | case2 first rest inductionHypothesis =>
      rw [List.flatten_cons, inductionHypothesis, List.cons_append, List.take_append_drop]

/-- No chunk is empty or larger than its size. -/
theorem length_of_mem_chunks
    (positive : 0 < size)
    (isChunk : chunk ∈ chunks size calls) :
    0 < chunk.length ∧ chunk.length ≤ size := by
  fun_induction chunks size calls with
  | case1 =>
      cases isChunk
  | case2 first rest inductionHypothesis =>
      rcases List.mem_cons.mp isChunk with isFirst | isLater
      · rw [isFirst, List.length_cons, List.length_take]
        omega
      · exact inductionHypothesis isLater

theorem chunkSize_pos
    (config : BatchConfig)
    (size : Nat) :
    0 < chunkSize config size := by
  unfold chunkSize
  split <;> omega

end Execution

namespace Course

variable {policy : RetryPolicy} {config : BatchConfig} {chunk : List Call}
  {course later : Course} {fault : Fault}

/-- The calls that a course carries out. -/
def calls (course : Course) : List Call := course.batch.tasks.map (·.call)

/-- What a course makes of its calls, once it is over. -/
def results (course : Course) : List Call := course.batch.results course.ended

/-- A chunk of calls before anything has happened, under a context of its own. -/
def ofChunk (config : BatchConfig) (chunk : List Call) : Course :=
  { batch := Execution.chunkBatch config chunk }

/-- The context of a chunk ends with the one above it, unless it has ended before; only being
late may still turn into being cancelled. -/
def under (course : Course) (fault : Fault) : Course :=
  match course.ended, fault with
  | none, fault => course.endContext fault
  | some .deadlineExceeded, .cancelled => course.endContext .cancelled
  | some _, _ => course

/-- When the context above ends, that of a chunk ends or has ended. -/
theorem under_moves
    (policy : RetryPolicy)
    (course : Course)
    (endsContext : fault.endsContext = true) :
    Moves policy course (course.under fault) ∨ course.under fault = course := by
  unfold under
  split
  · rename_i isLive
    refine Or.inl (.outside ?_)
    rw [isLive]
    exact .first endsContext
  · rename_i isLate
    refine Or.inl (.outside ?_)
    rw [isLate]
    exact .overtaken
  · exact Or.inr rfl

theorem reaches_under
    (policy : RetryPolicy)
    (course : Course)
    (endsContext : fault.endsContext = true) :
    Reaches policy course (course.under fault) := by
  rcases course.under_moves policy endsContext with moves | isSame
  · exact .single moves
  · rw [isSame]

theorem carries_ofChunk
    (reaches : Reaches policy (ofChunk config chunk) course) :
    Carries chunk (.independent chunk.length) (max config.maxConcurrency 1)
      (!config.continueOnError) course :=
  .of_reaches reaches

/-- A chunk waits for nothing. -/
theorem length_awaited_independent
    (chunk : List Call) :
    (Schedule.independent chunk.length).awaited.length = chunk.length :=
  List.length_replicate

/-- Whatever happens to a chunk, its calls are the calls that it was given. -/
theorem calls_of_reaches
    (reaches : Reaches policy (ofChunk config chunk) course) :
    course.calls = chunk :=
  (carries_ofChunk reaches).map_call (length_awaited_independent chunk)

@[simp] theorem calls_ofChunk
    (config : BatchConfig)
    (chunk : List Call) :
    (ofChunk config chunk).calls = chunk := by
  have reaches : Reaches {} (ofChunk config chunk) (ofChunk config chunk) :=
    .refl
  exact calls_of_reaches reaches

/-- Each call of a chunk is settled in its place. -/
theorem results_settled
    (reaches : Reaches policy (ofChunk config chunk) course) :
    List.Forall₂ (fun call result => ∃ outcome, result = call.settle outcome) course.calls
      course.results := by
  rw [calls_of_reaches reaches]
  exact forall₂_results (length_awaited_independent chunk) (carries_ofChunk reaches)
    (.of_reaches reaches)

/-- Each call is settled in its place, whether its chunk began or was left. -/
theorem settled_of_chunks
    {courses : List Course}
    (alone : ∀ course ∈ courses, Reaches policy (ofChunk config course.calls) course)
    (left : List (List Call))
    (reason : Fault) :
    List.Forall₂ (fun call result => ∃ outcome, result = call.settle outcome)
      (courses.map Course.calls ++ left).flatten
      (courses.flatMap Course.results ++
        left.flatten.map fun call => call.settle (.error reason)) := by
  induction courses with
  | nil =>
      rw [List.map_nil, List.flatMap_nil, List.nil_append, List.nil_append,
        List.forall₂_map_right_iff, List.forall₂_same]
      exact fun call _ => ⟨_, rfl⟩
  | cons course rest inductionHypothesis =>
      rw [List.map_cons, List.cons_append, List.flatten_cons, List.flatMap_cons,
        List.append_assoc]
      exact List.rel_append (results_settled (alone course List.mem_cons_self))
        (inductionHypothesis fun other isRest => alone other (List.mem_cons_of_mem _ isRest))

/-- No more calls of a chunk are being invoked than it has, and than may run at once. -/
theorem inside_le_of_chunk
    (reaches : Reaches policy (ofChunk config chunk) course) :
    (Conduct.together course).inside ≤ min chunk.length (max config.maxConcurrency 1) := by
  refine Nat.le_min.mpr ⟨?_, inside_le_of_permitted (carries_ofChunk reaches).permitted⟩
  rw [← calls_of_reaches reaches, calls, List.length_map]
  exact List.countP_le_length

end Course

/-- Whether a batch can be begun at an instant: there can be that many permits, and the
timeout ends no later than the last instant. -/
def BatchConfig.Admits (config : BatchConfig) (now : Instant) : Prop :=
  max config.maxConcurrency 1 ≤ Execution.maxPermits ∧ config.limit? now ≠ none

/-- What can be begun at an instant could be begun before. -/
theorem BatchConfig.Admits.of_le
    {config : BatchConfig}
    {now latest : Instant}
    (admits : config.Admits latest)
    (isBefore : now ≤ latest) :
    config.Admits now := by
  refine ⟨admits.1, fun isEndless => admits.2 ?_⟩
  obtain ⟨timeout, isTimeout, isBeyond⟩ := limit?_eq_none_iff.mp isEndless
  exact limit?_eq_none_iff.mpr
    ⟨timeout, isTimeout, isBeyond.trans (Nat.add_le_add_right isBefore timeout)⟩

/-- Where chunks that are carried out one after the other stand. -/
inductive Leg where
  /-- No chunk is under way. -/
  | between
  /-- A chunk is under way. -/
  | under (course : Course)
  /-- A chunk was to begin, and the machinery broke down. -/
  | brokeDown

/-- Chunks that are carried out one after the other, under one context above them all. -/
structure Relay where
  /-- The chunks that are over, in their order. -/
  past : List Course := []
  leg : Leg := .between
  /-- The chunks that have not begun. -/
  coming : List (List Call)
  /-- The chunks that were left when the context had ended, and why it had. -/
  left : Option (Fault × List (List Call)) := none
  /-- Why the context above has ended, if it has. -/
  ended : Option Fault := none

namespace Relay

/-- Calls in chunks of a size, before anything has happened. -/
def start (config : BatchConfig) (calls : List Call) (size : Nat) : Relay :=
  { coming := Execution.chunks (Execution.chunkSize config size) calls }

/-- The context above ends, and so does that of the chunk that is under way. -/
def endAbove (relay : Relay) (fault : Fault) : Relay :=
  { relay with
    ended := some fault
    leg :=
      match relay.leg with
      | .under course => .under (course.under fault)
      | leg => leg }

/-- The chunks that have begun, in their order. -/
def courses (relay : Relay) : List Course :=
  relay.past ++
    match relay.leg with
    | .under course => [course]
    | _ => []

/-- The chunks that were left. -/
def leftOver (relay : Relay) : List (List Call) :=
  match relay.left with
  | some (_, chunks) => chunks
  | none => []

/-- What has become of the calls, in the order in which they were given. -/
def results (relay : Relay) : List Call :=
  relay.past.flatMap Course.results ++
    match relay.left with
    | some (fault, chunks) => chunks.flatten.map fun call => call.settle (.error fault)
    | none => []

/-- How many calls are being invoked. -/
def inside (relay : Relay) : Nat :=
  (relay.courses.map fun course => (Conduct.together course).inside).sum

/-- Whether no chunk is under way and none has still to come. -/
def IsOver (relay : Relay) : Prop :=
  relay.leg = .between ∧ relay.coming = []

/-- What may happen next by itself, up to a latest instant.  A chunk begins when none is under
way, unless the context above has ended. -/
inductive Step (policy : RetryPolicy) (config : BatchConfig) (latest : Instant) :
    Relay → Relay → Prop where
  | run {relay : Relay} {course next : Course} :
      relay.leg = .under course →
      Course.Step policy course next →
      Step policy config latest relay { relay with leg := .under next }
  | close {relay : Relay} {course : Course} :
      relay.leg = .under course →
      course.IsOver →
      Step policy config latest relay
        { relay with past := relay.past ++ [course], leg := .between }
  | begin {relay : Relay} {chunk : List Call} {rest : List (List Call)} {now : Instant} :
      relay.leg = .between →
      relay.coming = chunk :: rest →
      relay.ended = none →
      now ≤ latest →
      config.Admits now →
      Step policy config latest relay
        { relay with leg := .under (.ofChunk config chunk), coming := rest }
  | breakDown {relay : Relay} {now : Instant} :
      relay.leg = .between →
      relay.coming ≠ [] →
      relay.ended = none →
      now ≤ latest →
      ¬ config.Admits now →
      Step policy config latest relay { relay with leg := .brokeDown }
  | leave {relay : Relay} {fault : Fault} :
      relay.leg = .between →
      relay.coming ≠ [] →
      relay.ended = some fault →
      Step policy config latest relay
        { relay with left := some (fault, relay.coming), coming := [] }

/-- What may happen next: a step, the end of the context of a chunk, or that of the context
above. -/
inductive Moves (policy : RetryPolicy) (config : BatchConfig) (latest : Instant) :
    Relay → Relay → Prop where
  | step {relay next : Relay} :
      Step policy config latest relay next →
      Moves policy config latest relay next
  | chunkEnds {relay : Relay} {course : Course} {fault : Fault} :
      relay.leg = .under course →
      ContextEnds course.ended fault →
      Moves policy config latest relay { relay with leg := .under (course.endContext fault) }
  | ends {relay : Relay} {fault : Fault} :
      ContextEnds relay.ended fault →
      Moves policy config latest relay (relay.endAbove fault)

/-- Whatever may have happened after any number of moves. -/
abbrev Reaches (policy : RetryPolicy) (config : BatchConfig) (latest : Instant) :
    Relay → Relay → Prop :=
  Relation.ReflTransGen (Moves policy config latest)

/-- However things go, the chunks come to their end: they are over, or something can be done
and whatever happens leads to the end. -/
inductive Concludes (policy : RetryPolicy) (config : BatchConfig) (latest : Instant) :
    Relay → Prop where
  | ended {relay : Relay} :
      relay.IsOver →
      Concludes policy config latest relay
  | goesOn {relay next : Relay} :
      Step policy config latest relay next →
      (∀ later, Moves policy config latest relay later →
        Concludes policy config latest later) →
      Concludes policy config latest relay

end Relay

end Runbook
