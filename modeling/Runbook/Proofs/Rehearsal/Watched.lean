import Runbook.Proofs.Run.HeedfulCrews
import Runbook.Proofs.Run.Mirrors
import Runbook.Rehearsal.Studio

namespace Runbook.Rehearsal

open RunEvent

/-!
# Rehearsed runs that are watched

A rehearsed run may be watched: somebody notes what is started in it, and when its context
ends.  All that is done in a studio heeds the end of the context, so the crew of a watched
studio does, and what it reports is what the crew of the studio reports.
-/

namespace World

/-- A context is there, and if it had ended before, it still has. -/
structure Keeps (context : Nat) (before after : World) : Prop where
  inTree : context < after.tree.size
  staysEnded : before.ended context ≠ none → after.ended context ≠ none

variable {context : Nat} {before after : World}

theorem Keeps.of_leads
    (inTree : context < before.tree.size)
    (leads : before.Leads context after) :
    before.Keeps context after := by
  refine ⟨leads.sameSize ▸ inTree, fun hasEnded => ?_⟩
  have goes := leads.goes
  generalize before.ended context = first at goes hasEnded
  generalize after.ended context = second at goes
  cases goes with
  | stays =>
      exact hasEnded
  | ends _ =>
      exact Option.some_ne_none _

theorem keeps_pass
    (inTree : context < before.tree.size)
    (instant : Instant) :
    before.Keeps context (before.pass context instant) := by
  unfold pass
  split <;> exact .of_leads inTree (leads_goTo context before _)

/-- Whatever becomes of calls that are carried out, the context of the run is kept, and it
ends only if that of the calls has ended. -/
theorem keeps_carryOut
    {setup : Setup}
    {calls : List Call}
    {table : Option (List (String × List String))}
    {limit : Nat}
    (inTree : context < before.tree.size)
    {carried : Carried}
    (isCarried : before.carryOut setup context calls table limit = (carried, after)) :
    before.Keeps context after := by
  rcases drifts_carryOut isCarried with rfl | ⟨id, begun, made, drifts, -⟩
  · exact ⟨inTree, id⟩
  · have sameEnd := ended_above_of_batchContext made inTree
    obtain ⟨rfl, limit, isBegun⟩ := below_of_batchContext made
    refine ⟨?_, fun hasEnded => drifts.ended_of_lt inTree (sameEnd ▸ hasEnded)⟩
    rw [drifts.sameSize, isBegun, ContextTree.size_below]
    exact Nat.lt_succ_of_lt inTree

end World

namespace Studio

variable {α : Type}

/-- What may be done in a studio without losing a context. -/
def KeepsContext (context : Nat) (act : Studio → α × Studio) : Prop :=
  ∀ studio : Studio, context < studio.world.tree.size →
    studio.world.Keeps context (act studio).2.world

theorem keepsContext_of_sameWorld
    (context : Nat)
    {act : Studio → α × Studio}
    (sameWorld : ∀ studio, (act studio).2.world = studio.world) :
    KeepsContext context act := by
  intro studio inTree
  rw [sameWorld]
  exact ⟨inTree, id⟩

theorem keepsContext_of_same
    {context : Nat}
    {act : Studio → α × Studio}
    (sameTree : ∀ studio, (act studio).2.world.tree = studio.world.tree)
    (sameNow : ∀ studio, (act studio).2.world.now = studio.world.now) :
    KeepsContext context act :=
  fun studio inTree => .of_leads inTree (World.leads_of_same (sameTree studio) (sameNow studio))

/-- No turn of some work loses a context. -/
def WorkKeeps (context : Nat) : Work Studio α → Prop
  | .last take => KeepsContext context take
  | .turn take rest => KeepsContext context take ∧ ∀ studio, WorkKeeps context (rest studio)

/-- A turn in which some work returns leaves the world alone. -/
def ReturnsAtOnce : Work Studio α → Prop
  | .last take => ∀ studio, (take studio).2.world = studio.world
  | .turn take rest =>
      ∀ studio,
        ((take studio).1 ≠ none → (take studio).2.world = studio.world) ∧
          ReturnsAtOnce (rest studio)

section InTime

variable {start : Studio → (Duration × (Studio → α × Studio)) × Studio}
  (startsAtOnce : ∀ studio, (start studio).2.world = studio.world)
  (finishesAtOnce : ∀ studio later, ((start studio).1.2 later).2.world = later.world)

include startsAtOnce finishesAtOnce

theorem workKeeps_inTime
    (context : Nat) :
    WorkKeeps context (inTime context start) := by
  refine ⟨fun studio inTree => ?_, fun studio =>
    keepsContext_of_sameWorld context (finishesAtOnce studio)⟩
  dsimp only
  split
  · dsimp only
    rw [finishesAtOnce, startsAtOnce]
    exact ⟨inTree, id⟩
  · simp only [pause, startsAtOnce]
    exact World.keeps_pass inTree _

theorem returnsAtOnce_inTime
    (context : Nat) :
    ReturnsAtOnce (inTime context start) := by
  refine fun studio => ⟨fun returns => ?_, finishesAtOnce studio⟩
  dsimp only at returns ⊢
  split at returns
  · rename_i isNow
    rw [if_pos isNow, finishesAtOnce, startsAtOnce]
  · exact absurd rfl returns

end InTime

theorem world_complete
    (conversation : Conversation)
    (act : ModelAct)
    (studio : Studio) :
    (complete conversation act studio).2.world = studio.world := by
  cases act <;> rfl

theorem world_stream
    (conversation : Conversation)
    (act : ModelAct)
    (studio : Studio) :
    (stream conversation act studio).2.world = studio.world := by
  cases act <;> rfl

theorem workKeeps_sleep
    (setup : Setup)
    (context : Nat)
    (duration : Duration) :
    WorkKeeps context (workOnWorld (World.sleep setup context duration)) := by
  unfold World.sleep
  split
  · exact ⟨fun studio inTree => World.keeps_pass inTree _,
      fun studio => keepsContext_of_sameWorld context fun _ => rfl⟩
  · exact fun studio inTree => .of_leads inTree (World.leads_noteRest inTree duration)

end Studio

/-- A studio with all that has happened so far in the run under one of its contexts. -/
structure Watched (context : Nat) where
  studio : Studio
  history : List RunEvent
  inTree : context < studio.world.tree.size
  /-- It is noted when the context ends. -/
  agrees : HasEnded history ↔ studio.world.ended context ≠ none
  /-- In a studio it does not end as the planner or the reviewer returns. -/
  noReturn : ∀ fault, .contextEnded fault true ∉ history

namespace Watched

variable {context : Nat} {α : Type}

/-- The end of a context, if it has come since. -/
def endSince (before after : Option Fault) : List RunEvent :=
  match before, after with
  | none, some fault => [.contextEnded fault false]
  | _, _ => []

theorem endSince_self
    (ended : Option Fault) :
    endSince ended ended = [] := by
  cases ended <;> rfl

theorem hasEnded_endSince
    {before after : Option Fault} :
    HasEnded (endSince before after) ↔ before = none ∧ after ≠ none := by
  cases before <;> cases after <;> simp [endSince, HasEnded]

theorem isEnd_of_mem_endSince
    {before : Option Fault}
    {world : World} :
    ∀ event ∈ endSince before (world.ended context), event.IsEnd := by
  intro event isEnd
  cases before with
  | some fault =>
      cases isEnd
  | none =>
      cases ended : world.ended context with
      | none =>
          rw [ended] at isEnd
          cases isEnd
      | some fault =>
          rw [ended] at isEnd
          exact ⟨fault, ContextTree.endsContext_of_ended ended, List.mem_singleton.mp isEnd⟩

theorem noReturn_endSince
    (before after : Option Fault)
    (fault : Fault) :
    .contextEnded fault true ∉ endSince before after := by
  cases before <;> cases after <;> simp [endSince]

/-- A run that has not begun; its context may have ended before. -/
def begin (studio : Studio) (inTree : context < studio.world.tree.size) : Watched context where
  studio := studio
  history := endSince none (studio.world.ended context)
  inTree := inTree
  agrees := by
    rw [hasEnded_endSince]
    exact and_iff_right rfl
  noReturn := noReturn_endSince none (studio.world.ended context)

theorem starts_begin
    (studio : Studio)
    (inTree : context < studio.world.tree.size) :
    ∀ event ∈ (begin studio inTree).history, event.starts = false :=
  fun event isEnd => (isEnd_of_mem_endSince event isEnd).starts_eq_false

/-- Go on in a studio, and note what was started and whether the context has ended since. -/
def goOn (watched : Watched context) (started : List RunEvent) (later : Studio)
    (noEnd : ¬ HasEnded started) (keeps : watched.studio.world.Keeps context later.world) :
    Watched context where
  studio := later
  history :=
    watched.history ++
      (started ++ endSince (watched.studio.world.ended context) (later.world.ended context))
  inTree := keeps.inTree
  agrees := by
    rw [hasEnded_append, hasEnded_append, hasEnded_endSince, watched.agrees]
    constructor
    · rintro (before | now | ⟨-, now⟩)
      · exact keeps.staysEnded before
      · exact absurd now noEnd
      · exact now
    · intro now
      by_cases before : watched.studio.world.ended context = none
      · exact Or.inr (Or.inr ⟨before, now⟩)
      · exact Or.inl before
  noReturn fault := by
    rw [List.mem_append, List.mem_append]
    rintro (before | now | now)
    · exact watched.noReturn fault before
    · exact noEnd ⟨fault, true, now⟩
    · exact noReturn_endSince _ _ fault now

/-- A watched run that was not cut short goes on. -/
theorem not_hasEnded_of_steady
    {watched : Watched context}
    (steady : Steady watched.history) :
    ¬ HasEnded watched.history :=
  fun hasEnded => steady.notCut (cutShort_of_hasEnded hasEnded watched.noReturn)

/-- Do something in a watched studio. -/
def act {op : Studio → α × Studio} (keeps : Studio.KeepsContext context op)
    (started : List RunEvent) (noEnd : ¬ HasEnded started) (watched : Watched context) :
    α × Watched context :=
  ((op watched.studio).1,
    watched.goOn started (op watched.studio).2 noEnd (keeps watched.studio watched.inTree))

/-- Note that something is started. -/
def mark (start : RunEvent) (isStart : start.starts = true) (watched : Watched context) :
    Watched context :=
  watched.goOn [start] watched.studio (not_hasEnded_singleton isStart) ⟨watched.inTree, id⟩

theorem history_mark
    (start : RunEvent)
    (isStart : start.starts = true)
    (watched : Watched context) :
    (watched.mark start isStart).history = watched.history ++ [start] := by
  simp only [mark, goOn, endSince_self, List.append_nil]

/-- Do work in a watched studio, and note what is started when it begins. -/
def watch : (work : Work Studio α) → Studio.WorkKeeps context work →
    (started : List RunEvent) → ¬ HasEnded started → Work (Watched context) α
  | .last _, keeps, started, noEnd => .last (act keeps started noEnd)
  | .turn _ rest, keeps, started, noEnd =>
      .turn (act keeps.1 started noEnd) fun watched =>
        watch (rest watched.studio) (keeps.2 watched.studio) [] not_hasEnded_nil

/-- What leaves the world alone ends no context. -/
theorem returns_act
    {op : Studio → α × Studio}
    (keeps : Studio.KeepsContext context op)
    {started : List RunEvent}
    (noEnd : ¬ HasEnded started)
    {watched : Watched context}
    (sameWorld : (op watched.studio).2.world = watched.studio.world) :
    Returns (watched.history ++ started) (watched.act keeps started noEnd).2.history := by
  refine .inl ?_
  simp only [act, goOn, sameWorld, endSince_self, List.append_nil]

theorem passes_act
    {op : Studio → α × Studio}
    (keeps : Studio.KeepsContext context op)
    {started : List RunEvent}
    (noEnd : ¬ HasEnded started)
    (watched : Watched context) :
    Passes (watched.history ++ started) (watched.act keeps started noEnd).2.history :=
  ⟨_, isEnd_of_mem_endSince, (List.append_assoc ..).symm⟩

/-- Work in a studio starts nothing but what is noted. -/
theorem onlyStarts_watch
    {work : Work Studio α}
    (keeps : Studio.WorkKeeps context work)
    (atOnce : Studio.ReturnsAtOnce work)
    {started : List RunEvent}
    (noEnd : ¬ HasEnded started) :
    (watch work keeps started noEnd).OnlyStarts history Returns started := by
  induction work generalizing started with
  | last take =>
      exact fun watched => returns_act keeps noEnd (atOnce watched.studio)
  | turn take rest inductionHypothesis =>
      intro watched
      obtain ⟨returnsAtOnce, restAtOnce⟩ := atOnce watched.studio
      exact ⟨fun returns => returns_act keeps.1 noEnd (returnsAtOnce returns),
        fun _ => passes_act keeps.1 noEnd watched,
        inductionHypothesis watched.studio (keeps.2 watched.studio) restAtOnce
          not_hasEnded_nil⟩

theorem onlyPasses_watch
    {work : Work Studio α}
    (keeps : Studio.WorkKeeps context work)
    {started : List RunEvent}
    (noEnd : ¬ HasEnded started) :
    (watch work keeps started noEnd).OnlyStarts history Passes started := by
  induction work generalizing started with
  | last take =>
      exact passes_act keeps noEnd
  | turn take rest inductionHypothesis =>
      exact fun watched =>
        ⟨fun _ => passes_act keeps.1 noEnd watched, fun _ => passes_act keeps.1 noEnd watched,
          inductionHypothesis watched.studio (keeps.2 watched.studio) not_hasEnded_nil⟩

/-- Work that is watched is done as it is without. -/
theorem mirrors_watch
    {work : Work Studio α}
    (keeps : Studio.WorkKeeps context work)
    {started : List RunEvent}
    (noEnd : ¬ HasEnded started) :
    Work.Mirrors studio (watch work keeps started noEnd) work := by
  induction work generalizing started with
  | last take =>
      exact .last fun _ => rfl
  | turn take rest inductionHypothesis =>
      exact .turn (fun _ => rfl) fun watched =>
        inductionHypothesis watched.studio (keeps.2 watched.studio) not_hasEnded_nil

/-- A look at the context changes nothing, and tells whether it is noted as ended. -/
theorem looked_act
    {op : Studio → Option Fault × Studio}
    (keeps : Studio.KeepsContext context op)
    (looks : ∀ studio : Studio, op studio = (studio.world.ended context, studio))
    (watched : Watched context) :
    let looked := watched.act keeps [] not_hasEnded_nil
    Looked watched.history looked.2.history looked.1 := by
  have passes := passes_act keeps not_hasEnded_nil watched
  rw [List.append_nil] at passes
  refine ⟨passes, fun isNone hasEnded => ?_, fun fault isFault => ?_⟩
  · simp only [act, looks] at isNone
    refine (Watched.agrees _).mp hasEnded ?_
    simp only [act, goOn, looks, isNone]
  · simp only [act, looks] at isFault
    exact ContextTree.endsContext_of_ended isFault

/-! ### The model -/

theorem keepsContext_ask
    (context : Nat)
    (name : String) :
    Studio.KeepsContext context (Studio.gate name).ask :=
  Studio.keepsContext_of_same (fun _ => rfl) fun _ => rfl

theorem keepsContext_fail
    (context : Nat)
    (name : String) :
    Studio.KeepsContext context (Studio.gate name).fail :=
  Studio.keepsContext_of_same (fun _ => rfl) fun _ => rfl

/-- The breaker of a name. -/
def gate (name : String) : Gate (Watched context) where
  ask := act (keepsContext_ask context name) [] not_hasEnded_nil
  succeed watched :=
    watched.goOn [] ((Studio.gate name).succeed watched.studio) not_hasEnded_nil
      ⟨watched.inTree, id⟩
  fail := act (keepsContext_fail context name) [] not_hasEnded_nil

theorem keepsContext_look
    (context : Nat) :
    Studio.KeepsContext context (Studio.look context) :=
  Studio.keepsContext_of_sameWorld context fun _ => rfl

theorem keepsContext_lookDone
    (context : Nat) :
    Studio.KeepsContext context (Studio.lookDone context) :=
  Studio.keepsContext_of_sameWorld context fun _ => rfl

theorem looks_lookDone
    (context : Nat)
    (studio : Studio) :
    studio.lookDone context = (studio.world.ended context, studio) := by
  rw [Studio.lookDone, World.done_eq_ended]

section Answers

variable (context : Nat) (conversation : Conversation)

theorem workKeeps_client :
    Studio.WorkKeeps context
      (Studio.answering context false conversation (Studio.complete conversation)) :=
  Studio.workKeeps_inTime (fun _ => rfl) (fun _ => Studio.world_complete conversation _) context

theorem workKeeps_streamer :
    Studio.WorkKeeps context
      (Studio.answering context true conversation (Studio.stream conversation)) :=
  Studio.workKeeps_inTime (fun _ => rfl) (fun _ => Studio.world_stream conversation _) context

theorem workKeeps_next
    (duration : Duration) :
    Studio.WorkKeeps context
      (Studio.inTime context fun studio => ((duration, fun later => ((), later)), studio)) :=
  Studio.workKeeps_inTime (fun _ => rfl) (fun _ _ => rfl) context

end Answers

/-- The scripted model. -/
def access (setup : Setup) : ModelAccess (Watched context) where
  look := act (keepsContext_look context) [] not_hasEnded_nil
  done := act (keepsContext_lookDone context) [] not_hasEnded_nil
  sleep duration := watch _ (Studio.workKeeps_sleep setup context duration) [] not_hasEnded_nil
  gate := gate ModelAccess.breakerName
  client conversation :=
    watch _ (workKeeps_client context conversation) [.modelAsked] (not_hasEnded_singleton rfl)
  streamer conversation :=
    watch _ (workKeeps_streamer context conversation) [.modelAsked]
      (not_hasEnded_singleton rfl)
  next duration := watch _ (workKeeps_next context duration) [] not_hasEnded_nil

theorem unseen_gate
    (name : String) :
    (gate name).Unseen (history : Watched context → List RunEvent) := by
  have sameHistory (watched : Watched context) :
      watched.history ++
          ([] ++ endSince (watched.studio.world.ended context)
            (watched.studio.world.ended context)) =
        watched.history := by
    rw [endSince_self, List.append_nil, List.append_nil]
  exact ⟨sameHistory, sameHistory, sameHistory⟩

theorem heeds_access
    (setup : Setup) :
    (access setup).Heeds (history : Watched context → List RunEvent) where
  look := looked_act (keepsContext_look context) fun _ => rfl
  done := looked_act (keepsContext_lookDone context) (looks_lookDone context)
  sleep duration := onlyPasses_watch (Studio.workKeeps_sleep setup context duration) _
  gate := unseen_gate ModelAccess.breakerName
  client conversation :=
    onlyStarts_watch (workKeeps_client context conversation)
      (Studio.returnsAtOnce_inTime (fun _ => rfl)
        (fun _ => Studio.world_complete conversation _) context) _
  streamer conversation :=
    onlyStarts_watch (workKeeps_streamer context conversation)
      (Studio.returnsAtOnce_inTime (fun _ => rfl)
        (fun _ => Studio.world_stream conversation _) context) _
  next duration :=
    onlyStarts_watch (workKeeps_next context duration)
      (Studio.returnsAtOnce_inTime (fun _ => rfl) (fun _ _ => rfl) context) _

theorem mirrors_access
    (setup : Setup) :
    (access setup).Mirrors (studio : Watched context → Studio)
      (Studio.access setup context) where
  look _ := rfl
  done _ := rfl
  sleep _ := mirrors_watch _ _
  gate := ⟨fun _ => rfl, fun _ => rfl, fun _ => rfl⟩
  client _ := mirrors_watch _ _
  streamer _ := mirrors_watch _ _
  next _ := mirrors_watch _ _

/-! ### Batches -/

/-- What may have happened in a batch by which a plan was carried out. -/
def Explains (setup : Setup) (plan : Plan) (watched : Watched context)
    (events : List BatchEvent) : Prop :=
  let carried := watched.studio.carryOut setup context plan
  carried.1 = .brokeDown ∧ events = [] ∧ carried.2.world.ended context = none ∨
    ∃ conduct,
      Errand.Reaches setup.policy
          ⟨.start setup.batch plan.steps (some plan.dependencies) setup.batch.maxConcurrency
              watched.studio.world.now,
            watched.history⟩
          ⟨conduct, watched.history ++ events.map .inBatch⟩ ∧
        conduct.Shows carried.1 ∧
          (carried.2.world.ended context ≠ none → conduct.ended ≠ none)

theorem exists_explains
    (setup : Setup)
    (plan : Plan)
    (watched : Watched context) :
    ∃ events, ¬ HasEnded watched.history → watched.Explains setup plan events := by
  by_cases hasEnded : HasEnded watched.history
  · exact ⟨[], fun goesOn => absurd hasEnded goesOn⟩
  · have goesOn : watched.studio.world.ended context = none := by
      by_contra isOver
      exact hasEnded (watched.agrees.mpr isOver)
    cases isCarried :
        World.carryOut setup context plan.steps (some plan.dependencies)
          setup.batch.maxConcurrency watched.studio.world with
    | mk carried later =>
        have drifted := World.drifts_carryOut isCarried
        simp only [Explains, Studio.carryOut, Studio.onWorld, isCarried]
        rcases World.carryOut_shows isCarried with rfl | ⟨conduct, reaches, shows, ends⟩
        · refine ⟨[], fun _ => Or.inl ⟨rfl, rfl, ?_⟩⟩
          rcases drifted with rfl | ⟨id, begun, made, -, breaksDown⟩
          · exact goesOn
          · rw [breaksDown rfl, World.ended_above_of_batchContext made watched.inTree]
            exact goesOn
        · obtain ⟨events, errandReaches⟩ := Errand.exists_of_reaches reaches hasEnded
          refine ⟨events, fun _ => Or.inr ⟨conduct, errandReaches, shows, fun endsNow => ?_⟩⟩
          rcases ends with rfl | ⟨id, begun, made, isEnd⟩
          · exact absurd goesOn endsNow
          · rcases drifted with rfl | ⟨other, otherBegun, otherMade, drifts, -⟩
            · exact absurd goesOn endsNow
            · rw [made] at otherMade
              cases otherMade
              rw [isEnd]
              exact drifts.ended_of_batchContext made watched.inTree endsNow

/-- Carry a plan out, and note what happens in the batch. -/
noncomputable def carryOut (setup : Setup) (plan : Plan) (watched : Watched context) :
    Carried × Watched context :=
  let carried := watched.studio.carryOut setup context plan
  (carried.1,
    watched.goOn ((exists_explains setup plan watched).choose.map .inBatch) carried.2
      (not_hasEnded_inBatch _) (World.keeps_carryOut watched.inTree rfl))

/-- What was noted of a batch is what happened in it. -/
theorem reaches_carryOut
    (setup : Setup)
    (plan : Plan)
    (watched : Watched context)
    (steady : Steady watched.history) :
    let carried := watched.carryOut setup plan
    (carried.1 = .brokeDown ∧ carried.2.history = watched.history) ∨
      ∃ (now : Instant) (errand : Errand),
        Errand.Reaches setup.policy
            ⟨.start setup.batch plan.steps (some plan.dependencies) setup.batch.maxConcurrency
                now,
              watched.history⟩ errand ∧
          errand.conduct.Shows carried.1 ∧ carried.2.history = errand.history := by
  have goesOn := not_hasEnded_of_steady steady
  have explains := (exists_explains setup plan watched).choose_spec goesOn
  have before : watched.studio.world.ended context = none := by
    by_contra isOver
    exact goesOn (watched.agrees.mpr isOver)
  simp only [carryOut, goOn, before]
  generalize (exists_explains setup plan watched).choose = events at explains
  rcases explains with ⟨breaksDown, rfl, after⟩ | ⟨conduct, reaches, shows, ends⟩
  · refine Or.inl ⟨breaksDown, ?_⟩
    rw [after]
    simp [endSince]
  · refine Or.inr ?_
    cases after :
        (watched.studio.carryOut setup context plan).2.world.ended context with
    | none =>
        exact ⟨_, _, reaches, shows, by simp [endSince]⟩
    | some fault =>
        have hasEnded : conduct.ended ≠ none := by
          apply ends
          rw [after]
          exact Option.some_ne_none fault
        have endsContext : fault.endsContext = true :=
          ContextTree.endsContext_of_ended after
        exact ⟨_, _, reaches.tail (.runEnds hasEnded endsContext), shows, by simp [endSince]⟩

/-! ### The crew -/

theorem workKeeps_scriptedPlan
    (context : Nat)
    (turns : List PlanTurn)
    (results : List Call) :
    Studio.WorkKeeps context (Studio.scriptedPlan context turns results) :=
  Studio.workKeeps_inTime (fun _ => rfl) (fun _ _ => rfl) context

theorem workKeeps_scriptedReview
    (context : Nat)
    (turns : List ReviewTurn)
    (results : List Call) :
    Studio.WorkKeeps context (Studio.scriptedReview context turns results) :=
  Studio.workKeeps_inTime (fun _ => rfl) (fun _ _ => rfl) context

/-- Those who work for a run in a watched studio. -/
noncomputable def crew (setup : Setup) (context : Nat) (kind : String)
    (planner : Option (List PlanTurn)) (reviewer : Option (List ReviewTurn)) :
    Crew (Watched context) where
  look := act (keepsContext_look context) [] not_hasEnded_nil
  done := act (keepsContext_lookDone context) [] not_hasEnded_nil
  planner objective results :=
    match planner with
    | some turns =>
        watch _ (workKeeps_scriptedPlan context turns results) [.plannerCalled]
          (not_hasEnded_singleton rfl)
    | none =>
        .last fun watched =>
          Planning.plan (access setup) setup.policy (watched.studio.toolText kind) objective
            results (watched.mark .plannerCalled rfl)
  carryOut := carryOut setup
  reviewer objective results :=
    match reviewer with
    | some turns =>
        (watch _ (workKeeps_scriptedReview context turns results) [.reviewerCalled]
          (not_hasEnded_singleton rfl)).beside
    | none =>
        Review.telling fun watched =>
          Review.review (access setup) setup.policy (watched.studio.toolText kind) objective
            results (watched.mark .reviewerCalled rfl)

/-- The crew of a watched studio heeds the end of the context, whoever plans and reviews. -/
theorem heeds_crew
    (setup : Setup)
    (context : Nat)
    (kind : String)
    (planner : Option (List PlanTurn))
    (reviewer : Option (List ReviewTurn)) :
    (crew setup context kind planner reviewer).Heeds history setup.policy setup.batch where
  look := looked_act (keepsContext_look context) fun _ => rfl
  done := looked_act (keepsContext_lookDone context) (looks_lookDone context)
  planner := by
    cases planner with
    | some turns =>
        exact .other fun objective results =>
          onlyStarts_watch (workKeeps_scriptedPlan context turns results)
            (Studio.returnsAtOnce_inTime (fun _ => rfl) (fun _ _ => rfl) context) _
    | none =>
        exact .model (heeds_access setup)
          (history_mark .plannerCalled rfl) (fun _ => .inl rfl) fun _ _ => rfl
  carriesOut plan watched :=
    Studio.carriesOutPlans setup context kind planner reviewer plan watched.studio
  carryOut := reaches_carryOut setup
  reviewer := by
    cases reviewer with
    | some turns =>
        exact .other fun objective results =>
          (onlyStarts_watch (workKeeps_scriptedReview context turns results)
            (Studio.returnsAtOnce_inTime (fun _ => rfl) (fun _ _ => rfl) context) _).beside
    | none =>
        refine @Crew.ReviewerHeeds.model _ history _ (access setup) setup.policy
          (fun watched => watched.studio.toolText kind)
          (fun watched => watched.mark .reviewerCalled rfl) id
          (heeds_access setup) (history_mark .reviewerCalled rfl) (fun _ => .inl rfl) ?_
        intro objective results
        simp only [crew, Prod.map_id, id]

/-- Watching changes nothing. -/
theorem mirrors_crew
    (setup : Setup)
    (context : Nat)
    (kind : String)
    (planner : Option (List PlanTurn))
    (reviewer : Option (List ReviewTurn)) :
    (crew setup context kind planner reviewer).Mirrors studio
      (Studio.crew setup context kind planner reviewer) where
  look _ := rfl
  done _ := rfl
  planner objective results := by
    cases planner with
    | some turns =>
        exact mirrors_watch _ _
    | none =>
        exact .last fun watched =>
          (mirrors_access setup).plan setup.policy (watched.studio.toolText kind) objective
            results (watched.mark .plannerCalled rfl)
  carryOut _ _ := rfl
  reviewer objective results := by
    cases reviewer with
    | some turns =>
        exact (mirrors_watch _ _).beside
    | none =>
        have reflects :
            Reflects studio
              (fun watched : Watched context =>
                Review.review (access setup) setup.policy (watched.studio.toolText kind) objective
                  results (watched.mark .reviewerCalled rfl))
              (Studio.review setup context kind objective results) :=
          fun watched =>
            (mirrors_access setup).review setup.policy (watched.studio.toolText kind) objective
              results (watched.mark .reviewerCalled rfl)
        exact ModelAccess.Mirrors.telling reflects

end Watched

/-- A rehearsed run whose context has ended by its end has failed for that, whoever plans and
reviews. -/
theorem Studio.fails_of_ended
    {setup : Setup}
    {context : Nat}
    {kind : String}
    {planner : Option (List PlanTurn)}
    {reviewer : Option (List ReviewTurn)}
    {limit : Nat}
    {runId objective : String}
    {studio later : Studio}
    {report? : Option Report}
    (inTree : context < studio.world.tree.size)
    (isRun :
      (crew setup context kind planner reviewer).run limit runId objective studio =
        (report?, later))
    (hasEnded : later.world.ended context ≠ none) :
    ∃ report, report? = some report ∧
      (report.outcome = .failed .cancelled ∨ report.outcome = .failed .deadlineExceeded) := by
  let before : Watched context := .begin studio inTree
  have mirrors :=
    (Watched.mirrors_crew setup context kind planner reviewer).run limit runId objective before
  have heeded :=
    (Watched.heeds_crew setup context kind planner reviewer).run limit runId objective
      (orderly_of_starts_eq_false (Watched.starts_begin studio inTree))
  obtain ⟨sameReport, sameLater⟩ := Prod.mk.inj (isRun.symm.trans mirrors)
  rw [sameReport]
  apply heeded.cutOff
  apply cutShort_of_hasEnded
  · rw [Watched.agrees]
    exact sameLater ▸ hasEnded
  · exact Watched.noReturn _

end Runbook.Rehearsal
