import Mathlib.Data.List.Induction
import Mathlib.Data.List.Perm.Subperm
import Mathlib.Logic.Relation
import Runbook.Proofs.Breaker.Events

namespace Runbook

/-!
# What gets a circuit out of the half-open state

A breaker does not know when a call was let through that reports to it.  While its circuit
is half open it counts every report, also that of a call from before the circuit opened.
So the circuit closes after as many successes as it is to, each of a call of its own, that
have come in since it became half open, and opens again with a failure that has come in
since.  These are reports of calls that were let through in the half-open state, unless a
call from before returns just then.
-/

namespace Breaker

variable {config : BreakerConfig} {breaker next : Breaker} {event : Event}
  {events before earlier period : List Event} {opening decision : Event}

/-- Calls on their way past a breaker. -/
structure Traffic where
  breaker : Breaker := .fresh
  /-- The calls that were let through and have not reported yet. -/
  underway : List Nat := []
  /-- What has happened, in that order. -/
  history : List Event := []

namespace Traffic

/-- An event happens to the breaker, after which these calls are under way. -/
def happen
    (config : BreakerConfig) (traffic : Traffic) (event : Event) (underway : List Nat) :
    Traffic where
  breaker := traffic.breaker.react config event
  underway := underway
  history := traffic.history ++ [event]

/-- What calls may do next: each asks once, and reports once if it is let through. -/
inductive Step (config : BreakerConfig) : Traffic → Traffic → Prop where
  | passes {traffic : Traffic} {call : Nat} {now : Instant} :
      (∀ event ∈ traffic.history, event.call ≠ call) →
      traffic.breaker.refuses now = false →
      Step config traffic
        (traffic.happen config ⟨call, now, .request⟩ (call :: traffic.underway))
  | turnedAway {traffic : Traffic} {call : Nat} {now : Instant} :
      (∀ event ∈ traffic.history, event.call ≠ call) →
      traffic.breaker.refuses now = true →
      Step config traffic
        (traffic.happen config ⟨call, now, .request⟩ traffic.underway)
  | reports {traffic : Traffic} {call : Nat} {now : Instant} {verdict : Verdict} :
      call ∈ traffic.underway →
      Step config traffic
        (traffic.happen config ⟨call, now, .report verdict⟩ (traffic.underway.erase call))

/-- Whatever may have happened after any number of steps. -/
abbrev Reaches (config : BreakerConfig) : Traffic → Traffic → Prop :=
  Relation.ReflTransGen (Step config)

end Traffic

/-- A call was let through in the course of events that came after earlier ones. -/
def LetThrough
    (config : BreakerConfig) (earlier events : List Event) (call : Nat) : Prop :=
  ∃ first now rest,
    events = first ++ ⟨call, now, .request⟩ :: rest ∧
      (after config (earlier ++ first)).refuses now = false

theorem LetThrough.asks
    {call : Nat}
    (letThrough : LetThrough config earlier events call) :
    ∃ now, ⟨call, now, .request⟩ ∈ events := by
  obtain ⟨first, now, rest, rfl, _⟩ := letThrough
  exact ⟨now, List.mem_append_right _ List.mem_cons_self⟩

/-- A call reported in the course of events. -/
def Reported (events : List Event) (call : Nat) (verdict : Verdict) : Prop :=
  ∃ now, ⟨call, now, .report verdict⟩ ∈ events

/-- After earlier events an opening event found the circuit open, and all through a period
since then it has been half open. -/
structure HalfOpenSince
    (config : BreakerConfig) (earlier : List Event) (opening : Event)
    (period : List Event) : Prop where
  wasOpen :
    (after config earlier).circuit = .opened
  isHalfOpen :
    ∀ first, first <+: period →
      (after config (earlier ++ opening :: first)).circuit = .halfOpen

/-- If a decision gets the circuit out of the half-open state, it rests on calls that were
let through in that state. -/
structure RestsOnProbes
    (config : BreakerConfig) (earlier : List Event) (opening : Event)
    (period : List Event) (decision : Event) : Prop where
  closes :
    (after config (earlier ++ opening :: (period ++ [decision]))).circuit = .closed →
    ∃ calls : List Nat,
      calls.Nodup ∧ config.halfOpenAttempts ≤ calls.length ∧
        ∀ call ∈ calls,
          LetThrough config earlier (opening :: period) call ∧
            Reported (period ++ [decision]) call .success
  reopens :
    (after config (earlier ++ opening :: (period ++ [decision]))).circuit = .opened →
    LetThrough config earlier (opening :: period) decision.call

/-- A call from before the circuit opened decides by its late return, one way or the
other, while the call that made the circuit half open is still under way. -/
theorem not_restsOnProbes_of_late_return :
    (∃ traffic : Traffic,
      Traffic.Reaches ⟨1, 5, 1⟩ {} traffic ∧
        traffic.history =
          [⟨0, 0, .request⟩, ⟨1, 0, .request⟩, ⟨1, 0, .report .failure⟩] ++
            ⟨2, 5, .request⟩ :: ([] ++ [⟨0, 5, .report .success⟩]) ∧
          HalfOpenSince ⟨1, 5, 1⟩
            [⟨0, 0, .request⟩, ⟨1, 0, .request⟩, ⟨1, 0, .report .failure⟩]
            ⟨2, 5, .request⟩ [] ∧
            traffic.breaker.circuit = .closed ∧
              ¬ RestsOnProbes ⟨1, 5, 1⟩
                [⟨0, 0, .request⟩, ⟨1, 0, .request⟩, ⟨1, 0, .report .failure⟩]
                ⟨2, 5, .request⟩ [] ⟨0, 5, .report .success⟩) ∧
      ∃ traffic : Traffic,
        Traffic.Reaches ⟨1, 5, 1⟩ {} traffic ∧
          traffic.history =
            [⟨0, 0, .request⟩, ⟨1, 0, .request⟩, ⟨1, 0, .report .failure⟩] ++
              ⟨2, 5, .request⟩ :: ([] ++ [⟨0, 5, .report .failure⟩]) ∧
            HalfOpenSince ⟨1, 5, 1⟩
              [⟨0, 0, .request⟩, ⟨1, 0, .request⟩, ⟨1, 0, .report .failure⟩]
              ⟨2, 5, .request⟩ [] ∧
              traffic.breaker.circuit = .opened ∧
                ¬ RestsOnProbes ⟨1, 5, 1⟩
                  [⟨0, 0, .request⟩, ⟨1, 0, .request⟩, ⟨1, 0, .report .failure⟩]
                  ⟨2, 5, .request⟩ [] ⟨0, 5, .report .failure⟩ := by
  have first : Traffic.Reaches ⟨1, 5, 1⟩ {} _ :=
    .single (@Traffic.Step.passes _ _ 0 0 (by simp) rfl)
  have second := first.tail (@Traffic.Step.passes _ _ 1 0 (by decide) rfl)
  have failed := second.tail (@Traffic.Step.reports _ _ 1 0 .failure (by decide))
  have probed := failed.tail (@Traffic.Step.passes _ _ 2 5 (by decide) rfl)
  have closed := probed.tail (@Traffic.Step.reports _ _ 0 5 .success (by decide))
  have reopened := probed.tail (@Traffic.Step.reports _ _ 0 5 .failure (by decide))
  have since :
      HalfOpenSince ⟨1, 5, 1⟩
        [⟨0, 0, .request⟩, ⟨1, 0, .request⟩, ⟨1, 0, .report .failure⟩]
        ⟨2, 5, .request⟩ [] := by
    refine ⟨rfl, ?_⟩
    intro first isFirst
    rw [List.prefix_nil.mp isFirst]
    rfl
  have isProbe :
      ∀ call,
        LetThrough ⟨1, 5, 1⟩
          [⟨0, 0, .request⟩, ⟨1, 0, .request⟩, ⟨1, 0, .report .failure⟩]
          [⟨2, 5, .request⟩] call →
        call = 2 := by
    intro call letThrough
    obtain ⟨_, asks⟩ := letThrough.asks
    cases List.mem_singleton.mp asks
    rfl
  refine ⟨⟨_, closed, rfl, since, rfl, ?_⟩, ⟨_, reopened, rfl, since, rfl, ?_⟩⟩
  · intro rests
    obtain ⟨calls, _, isEnough, returned⟩ := rests.closes rfl
    obtain ⟨call, member⟩ := List.exists_mem_of_length_pos isEnough
    obtain ⟨letThrough, _, isReported⟩ := returned call member
    cases List.mem_singleton.mp isReported
    exact absurd (isProbe 0 letThrough) (by decide)
  · intro rests
    exact absurd (isProbe 0 (rests.reopens rfl)) (by decide)

/-- What an event does to a half-open circuit. -/
theorem Reacts.of_halfOpen
    (reacts : Reacts config breaker event next)
    (isHalfOpen : breaker.circuit = .halfOpen) :
    match next.circuit with
    | .closed =>
        event.signal = .report .success ∧
          config.halfOpenAttempts ≤ breaker.successes + 1
    | .halfOpen =>
        event.signal ≠ .report .failure ∧
          (event.signal = .report .success →
            breaker.successes + 1 < config.halfOpenAttempts) ∧
          next.successes =
            breaker.successes + if event.signal = .report .success then 1 else 0
    | .opened => event.signal = .report .failure := by
  cases reacts with
  | ignores isIgnored =>
      have noSuccess : event.signal ≠ .report .success := by
        intro isSuccess
        simp [Ignores, isSuccess, isHalfOpen] at isIgnored
      have noFailure : event.signal ≠ .report .failure := by
        intro isFailure
        simp [Ignores, isFailure, isHalfOpen] at isIgnored
      simp [isHalfOpen, noSuccess, noFailure]
  | countsSuccess _ isSuccess tooFew =>
      simp [isHalfOpen, isSuccess, tooFew]
  | recovers _ isSuccess isEnough =>
      exact ⟨isSuccess, isEnough⟩
  | reopens _ isFailure =>
      exact isFailure
  | _ =>
      simp_all

theorem after_period_concat :
    after config (earlier ++ opening :: (period ++ [event])) =
      (after config (earlier ++ opening :: period)).react config event := by
  rw [← List.cons_append, ← List.append_assoc, after_concat]

theorem HalfOpenSince.concat
    (since : HalfOpenSince config earlier opening period)
    (isHalfOpen :
      (after config (earlier ++ opening :: (period ++ [event]))).circuit = .halfOpen) :
    HalfOpenSince config earlier opening (period ++ [event]) := by
  refine ⟨since.wasOpen, ?_⟩
  intro first isFirst
  rcases List.prefix_concat_iff.mp isFirst with isAll | isShorter
  · rw [isAll]
    exact isHalfOpen
  · exact since.isHalfOpen first isShorter

/-- A circuit that is half open has been so since it was open. -/
theorem exists_halfOpenSince
    (isHalfOpen : (after config events).circuit = .halfOpen) :
    ∃ earlier opening period,
      events = earlier ++ opening :: period ∧
        HalfOpenSince config earlier opening period := by
  induction events using List.reverseRecOn with
  | nil =>
      cases isHalfOpen
  | append_singleton events event inductionHypothesis =>
      by_cases before : (after config events).circuit = .halfOpen
      · obtain ⟨earlier, opening, period, rfl, since⟩ := inductionHypothesis before
        rw [List.append_assoc, List.cons_append] at isHalfOpen ⊢
        exact ⟨earlier, opening, period ++ [event], rfl, since.concat isHalfOpen⟩
      · have turns := turns_of_reacts (reacts_react config (after config events) event)
        rw [← after_concat, isHalfOpen] at turns
        rcases turns with isSame | turns
        · exact (before isSame.symm).elim
        · generalize wasOpen : (after config events).circuit = circuit at turns
          cases turns with
          | probes =>
              refine ⟨events, event, [], rfl, wasOpen, ?_⟩
              intro first isFirst
              rw [List.prefix_nil.mp isFirst]
              exact isHalfOpen

/-- The calls that report a success in the course of events. -/
def succeeded (events : List Event) : List Nat :=
  events.filterMap fun event =>
    if event.signal = .report .success then some event.call else none

theorem mem_succeeded
    {call : Nat} :
    call ∈ succeeded events ↔ Reported events call .success := by
  simp only [succeeded, List.mem_filterMap, Option.ite_none_right_eq_some,
    Option.some.injEq, Reported]
  constructor
  · rintro ⟨⟨_, now, _⟩, member, rfl, rfl⟩
    exact ⟨now, member⟩
  · rintro ⟨now, member⟩
    exact ⟨_, member, rfl, rfl⟩

theorem succeeded_append
    (first second : List Event) :
    succeeded (first ++ second) = succeeded first ++ succeeded second := by
  simp [succeeded]

/-- The successes of a half-open circuit are those that have come in since it became half
open. -/
theorem HalfOpenSince.successes_eq
    (since : HalfOpenSince config earlier opening period) :
    (after config (earlier ++ opening :: period)).successes =
      (succeeded period).length := by
  obtain ⟨wasOpen, isHalfOpen⟩ := since
  induction period using List.reverseRecOn with
  | nil =>
      have opens := isHalfOpen [] (List.prefix_refl [])
      rw [after_concat] at opens ⊢
      rcases (reacts_react config _ opening).of_opened wasOpen with
        isSame | ⟨_, _, isProbing⟩
      · rw [isSame, wasOpen] at opens
        cases opens
      · rw [isProbing]
        rfl
  | append_singleton period event inductionHypothesis =>
      have shorter := isHalfOpen period (List.prefix_append period [event])
      have longer := isHalfOpen (period ++ [event]) (List.prefix_refl _)
      have counted := inductionHypothesis fun first isFirst =>
        isHalfOpen first (isFirst.trans (List.prefix_append period [event]))
      rw [after_period_concat] at longer ⊢
      have counts := (reacts_react config _ event).of_halfOpen shorter
      simp only [longer] at counts
      rw [counts.2.2, counted, succeeded_append, List.length_append]
      simp only [succeeded, List.filterMap_cons, List.filterMap_nil]
      split <;> rfl

theorem length_succeeded_of_success
    (isSuccess : decision.signal = .report .success) :
    (succeeded (period ++ [decision])).length = (succeeded period).length + 1 := by
  simp [succeeded, isSuccess]

/-- A half-open circuit closes with the success that makes the successes enough. -/
theorem HalfOpenSince.closes_iff
    (since : HalfOpenSince config earlier opening period) :
    (after config (earlier ++ opening :: (period ++ [decision]))).circuit = .closed ↔
      decision.signal = .report .success ∧
        config.halfOpenAttempts ≤ (succeeded (period ++ [decision])).length := by
  have isHalfOpen := since.isHalfOpen period (List.prefix_refl period)
  have counts := (reacts_react config _ decision).of_halfOpen isHalfOpen
  rw [since.successes_eq, ← after_period_concat] at counts
  constructor
  · intro isClosed
    simp only [isClosed] at counts
    rw [length_succeeded_of_success counts.1]
    exact counts
  · rintro ⟨isSuccess, isEnough⟩
    rw [length_succeeded_of_success isSuccess] at isEnough
    split at counts
    case h_1 isClosed =>
      exact isClosed
    case h_2 =>
      exact absurd isEnough (Nat.not_le_of_lt (counts.2.1 isSuccess))
    case h_3 =>
      rw [isSuccess] at counts
      cases counts

/-- A half-open circuit opens again with a failure. -/
theorem HalfOpenSince.reopens_iff
    (since : HalfOpenSince config earlier opening period) :
    (after config (earlier ++ opening :: (period ++ [decision]))).circuit = .opened ↔
      decision.signal = .report .failure := by
  have isHalfOpen := since.isHalfOpen period (List.prefix_refl period)
  have counts := (reacts_react config _ decision).of_halfOpen isHalfOpen
  rw [← after_period_concat] at counts
  constructor
  · intro isOpen
    simpa only [isOpen] using counts
  · intro isFailure
    split at counts
    case h_1 =>
      rw [isFailure] at counts
      cases counts.1
    case h_2 =>
      exact absurd isFailure counts.1
    case h_3 isOpen =>
      exact isOpen

namespace Traffic

variable {traffic later : Traffic}

/-- A breaker has seen what has happened, and no call reports twice. -/
structure Tracks (config : BreakerConfig) (traffic : Traffic) : Prop where
  follows :
    traffic.breaker = after config traffic.history
  asked :
    ∀ call ∈ traffic.underway, ∃ event ∈ traffic.history, event.call = call
  apart :
    traffic.underway.Nodup
  pending :
    ∀ call ∈ traffic.underway, call ∉ succeeded traffic.history
  onceEach :
    (succeeded traffic.history).Nodup

theorem succeeded_request
    (history : List Event)
    (call : Nat)
    (now : Instant) :
    succeeded (history ++ [⟨call, now, .request⟩]) = succeeded history := by
  simp [succeeded]

theorem Tracks.follows_happen
    (tracks : traffic.Tracks config)
    (event : Event)
    (underway : List Nat) :
    (traffic.happen config event underway).breaker =
      after config (traffic.history ++ [event]) := by
  rw [after_concat, ← tracks.follows]
  rfl

/-- A call that has not asked before asks, and is under way if it is let through. -/
theorem Tracks.request
    (tracks : traffic.Tracks config)
    {call : Nat}
    (isNew : ∀ event ∈ traffic.history, event.call ≠ call)
    (now : Instant)
    {underway : List Nat}
    (atMostCall : underway.Sublist (call :: traffic.underway)) :
    (traffic.happen config ⟨call, now, .request⟩ underway).Tracks config := by
  have notUnderway : call ∉ traffic.underway := by
    intro member
    obtain ⟨event, isPast, isCall⟩ := tracks.asked call member
    exact isNew event isPast isCall
  have notReturned : call ∉ succeeded traffic.history := by
    intro member
    obtain ⟨_, isPast⟩ := mem_succeeded.mp member
    exact isNew _ isPast rfl
  have isCallOrPending :
      ∀ other ∈ underway, other = call ∨ other ∈ traffic.underway :=
    fun other member => List.mem_cons.mp (atMostCall.subset member)
  have sameReturns :
      succeeded (traffic.history ++ [⟨call, now, .request⟩]) = succeeded traffic.history :=
    succeeded_request traffic.history call now
  refine ⟨tracks.follows_happen _ _, ?_, ?_, ?_, ?_⟩
  · intro other member
    rcases isCallOrPending other member with isCall | isPending
    · exact ⟨_, List.mem_append_right _ (List.mem_singleton.mpr rfl), isCall.symm⟩
    · obtain ⟨event, isPast, isCall⟩ := tracks.asked other isPending
      exact ⟨event, List.mem_append_left _ isPast, isCall⟩
  · exact atMostCall.nodup (List.nodup_cons.mpr ⟨notUnderway, tracks.apart⟩)
  · intro other member
    rw [happen, sameReturns]
    rcases isCallOrPending other member with isCall | isPending
    · rw [isCall]
      exact notReturned
    · exact tracks.pending other isPending
  · rw [happen, sameReturns]
    exact tracks.onceEach

/-- A call that is under way reports, and is under way no more. -/
theorem Tracks.report
    (tracks : traffic.Tracks config)
    {call : Nat}
    (isUnderway : call ∈ traffic.underway)
    (now : Instant)
    (verdict : Verdict) :
    (traffic.happen config ⟨call, now, .report verdict⟩
      (traffic.underway.erase call)).Tracks config := by
  have isNew : call ∉ succeeded traffic.history := tracks.pending call isUnderway
  have isCall :
      ∀ other, other ∈ succeeded [⟨call, now, .report verdict⟩] → other = call := by
    intro other member
    obtain ⟨_, isLast⟩ := mem_succeeded.mp member
    cases List.mem_singleton.mp isLast
    rfl
  have atMostOnce : (succeeded [⟨call, now, .report verdict⟩]).Nodup := by
    simp only [succeeded, List.filterMap_cons, List.filterMap_nil]
    split <;> simp
  refine ⟨tracks.follows_happen _ _, ?_, tracks.apart.erase call, ?_, ?_⟩
  · intro other member
    obtain ⟨event, isPast, isOther⟩ := tracks.asked other (List.mem_of_mem_erase member)
    exact ⟨event, List.mem_append_left _ isPast, isOther⟩
  · intro other member
    obtain ⟨isOther, isPending⟩ := tracks.apart.mem_erase_iff.mp member
    rw [happen, succeeded_append, List.mem_append]
    rintro (isPast | isLast)
    · exact tracks.pending other isPending isPast
    · exact isOther (isCall other isLast)
  · rw [happen, succeeded_append, List.nodup_append]
    refine ⟨tracks.onceEach, atMostOnce, ?_⟩
    rintro first isPast second isLast rfl
    rw [isCall first isLast] at isPast
    exact isNew isPast

theorem Tracks.of_step
    (tracks : traffic.Tracks config)
    (step : Step config traffic later) :
    later.Tracks config := by
  cases step with
  | passes isNew _ =>
      exact tracks.request isNew _ (List.Sublist.refl _)
  | turnedAway isNew _ =>
      exact tracks.request isNew _ (List.sublist_cons_self _ _)
  | reports isUnderway =>
      exact tracks.report isUnderway _ _

theorem Tracks.of_reaches
    (reaches : Reaches config {} traffic) :
    traffic.Tracks config := by
  induction reaches with
  | refl =>
      exact ⟨rfl, by simp, List.nodup_nil, by simp, List.nodup_nil⟩
  | tail _ step inductionHypothesis =>
      exact inductionHypothesis.of_step step

end Traffic

/-- A decision counts the reports of a half-open period, whenever the calls that report
were let through. -/
structure CountsReports
    (config : BreakerConfig) (earlier : List Event) (opening : Event)
    (period : List Event) (decision : Event) : Prop where
  /-- A success closes the circuit if with it as many calls as are to have reported one. -/
  closes :
    (after config (earlier ++ opening :: (period ++ [decision]))).circuit = .closed ↔
      decision.signal = .report .success ∧
        ∃ calls : List Nat,
          calls.Nodup ∧ config.halfOpenAttempts ≤ calls.length ∧
            ∀ call ∈ calls, Reported (period ++ [decision]) call .success
  reopens :
    (after config (earlier ++ opening :: (period ++ [decision]))).circuit = .opened ↔
      decision.signal = .report .failure
  /-- If all that report a success or a failure were let through in the period, the
  decision rests on those. -/
  rests :
    (∀ call verdict,
      Reported (period ++ [decision]) call verdict →
      verdict = .nothing ∨ LetThrough config earlier (opening :: period) call) →
    RestsOnProbes config earlier opening period decision

/-- While calls pass, a half-open circuit heeds the reports that come in, and an open one
does not. -/
structure HeedsReports (config : BreakerConfig) (traffic : Traffic) : Prop where
  follows :
    traffic.breaker = after config traffic.history
  since :
    ∀ events, events <+: traffic.history →
      (after config events).circuit = .halfOpen →
      ∃ earlier opening period,
        events = earlier ++ opening :: period ∧
          HalfOpenSince config earlier opening period
  counts :
    ∀ earlier opening period decision,
      earlier ++ opening :: (period ++ [decision]) <+: traffic.history →
      HalfOpenSince config earlier opening period →
      CountsReports config earlier opening period decision
  ignores :
    ∀ events event verdict,
      events ++ [event] <+: traffic.history →
      (after config events).circuit = .opened →
      event.signal = .report verdict →
      after config (events ++ [event]) = after config events

theorem HalfOpenSince.countsReports
    (since : HalfOpenSince config earlier opening period)
    (onceEach : (succeeded (period ++ [decision])).Nodup) :
    CountsReports config earlier opening period decision := by
  refine ⟨?_, since.reopens_iff, fun onlyProbes => ⟨?_, ?_⟩⟩
  · rw [since.closes_iff]
    refine and_congr_right fun _ => ⟨?_, ?_⟩
    · intro isEnough
      exact ⟨_, onceEach, isEnough, fun call => mem_succeeded.mp⟩
    · rintro ⟨calls, distinct, isEnough, returned⟩
      have areCounted : calls ⊆ succeeded (period ++ [decision]) :=
        fun call member => mem_succeeded.mpr (returned call member)
      exact Nat.le_trans isEnough (distinct.subperm areCounted).length_le
  · intro isClosed
    obtain ⟨_, isEnough⟩ := since.closes_iff.mp isClosed
    refine ⟨_, onceEach, isEnough, ?_⟩
    intro call member
    have isReported := mem_succeeded.mp member
    rcases onlyProbes call .success isReported with isNothing | isProbe
    · cases isNothing
    · exact ⟨isProbe, isReported⟩
  · intro isOpen
    have isFailure := since.reopens_iff.mp isOpen
    have isReported : Reported (period ++ [decision]) decision.call .failure := by
      refine ⟨decision.now, List.mem_append_right _ (List.mem_singleton.mpr ?_)⟩
      rw [← isFailure]
    rcases onlyProbes decision.call .failure isReported with isNothing | isProbe
    · cases isNothing
    · exact isProbe

/-- However calls pass a breaker, its half-open circuit heeds the reports that come in. -/
theorem heedsReports_of_reaches
    {traffic : Traffic}
    (reaches : Traffic.Reaches config {} traffic) :
    HeedsReports config traffic := by
  obtain ⟨follows, _, _, _, onceEach⟩ := Traffic.Tracks.of_reaches reaches
  refine ⟨follows, fun _ _ => exists_halfOpenSince, ?_, ?_⟩
  · intro earlier opening period decision isPast since
    have isPart : (period ++ [decision]).Sublist traffic.history :=
      ((List.sublist_cons_self opening _).trans
        (List.sublist_append_right earlier _)).trans isPast.sublist
    exact since.countsReports ((isPart.filterMap _).nodup onceEach)
  · intro events event verdict _ isOpen isReport
    rw [after_concat]
    rcases (reacts_react config _ event).of_opened isOpen with isSame | ⟨isRequest, _⟩
    · exact isSame
    · rw [isReport] at isRequest
      cases isRequest

/-- Of the two successes that close a circuit one is that of a call from before it
opened. -/
theorem heedsReports_of_reaches_late_success :
    ∃ traffic : Traffic,
      Traffic.Reaches ⟨1, 5, 2⟩ {} traffic ∧
        HeedsReports ⟨1, 5, 2⟩ traffic ∧
          traffic.history =
            [⟨0, 0, .request⟩, ⟨1, 0, .request⟩, ⟨1, 0, .report .failure⟩,
              ⟨2, 5, .request⟩, ⟨0, 6, .report .success⟩, ⟨2, 7, .report .success⟩] ∧
            traffic.breaker = .fresh := by
  have first : Traffic.Reaches ⟨1, 5, 2⟩ {} _ :=
    .single (@Traffic.Step.passes _ _ 0 0 (by simp) rfl)
  have second := first.tail (@Traffic.Step.passes _ _ 1 0 (by decide) rfl)
  have failed := second.tail (@Traffic.Step.reports _ _ 1 0 .failure (by decide))
  have probed := failed.tail (@Traffic.Step.passes _ _ 2 5 (by decide) rfl)
  have late := probed.tail (@Traffic.Step.reports _ _ 0 6 .success (by decide))
  have closed := late.tail (@Traffic.Step.reports _ _ 2 7 .success (by decide))
  exact ⟨_, closed, heedsReports_of_reaches closed, rfl, rfl⟩

end Breaker

end Runbook
