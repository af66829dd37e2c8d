import Runbook.Ending

namespace Runbook

/-!
# Races with the end of a context

Work that waits is done in turns.  A turn goes as far as it gets: it returns, or it leaves the
rest for another turn, and what passes until then is part of it.  Work may race with the end of
a context.  Then the wait for that end is looked at before each turn, and once it is over the
work is dropped: nothing of it is done any more.
-/

/-- Work in turns, on a state `σ` of everything else. -/
inductive Work (σ α : Type) where
  /-- A turn that returns. -/
  | last (take : σ → α × σ)
  /-- A turn that may return; if it does not, `rest` is what is left to do of work whose turn
  was taken in a state. -/
  | turn (take : σ → Option α × σ) (rest : σ → Work σ α)

namespace Work

variable {σ τ α : Type}

/-- Let work race with the end of a context: what it returns, or the fault for which the context
has ended.  The end comes first. -/
def race (done : σ → Option Fault × σ) : Work σ α → σ → Except Fault α × σ
  | last take, state =>
      match done state with
      | (some fault, state) => (.error fault, state)
      | (none, state) =>
          let (value, state) := take state
          (.ok value, state)
  | turn take rest, state =>
      match done state with
      | (some fault, state) => (.error fault, state)
      | (none, state) =>
          match take state with
          | (some value, later) => (.ok value, later)
          | (none, later) => race done (rest state) later

section

variable {done : σ → Option Fault × σ} {state after later : σ}

theorem race_of_ended
    {fault : Fault}
    (isOver : done state = (some fault, after))
    (work : Work σ α) :
    work.race done state = (.error fault, after) := by
  cases work <;> simp only [race, isOver]

theorem race_last
    (goesOn : done state = (none, after))
    (take : σ → α × σ) :
    (last take).race done state = (.ok (take after).1, (take after).2) := by
  simp only [race, goesOn]

theorem race_of_returns
    {take : σ → Option α × σ}
    {value : α}
    (goesOn : done state = (none, after))
    (returns : take after = (some value, later))
    (rest : σ → Work σ α) :
    (turn take rest).race done state = (.ok value, later) := by
  simp only [race, goesOn, returns]

theorem race_of_waits
    {take : σ → Option α × σ}
    (goesOn : done state = (none, after))
    (waits : take after = (none, later))
    (rest : σ → Work σ α) :
    (turn take rest).race done state = (rest after).race done later := by
  simp only [race, goesOn, waits]

end

/-- Wait for work that returns nothing, unless the context ends first. -/
def await (done : σ → Option Fault × σ) (work : Work σ Unit) (state : σ) : Option Fault × σ :=
  match work.race done state with
  | (.error fault, state) => (some fault, state)
  | (.ok (), state) => (none, state)

/-- Do work that comes to an ending, unless the context ends first: that is an ending too. -/
def guarded (done : σ → Option Fault × σ) (work : Work σ (Ending α)) (state : σ) :
    Ending α × σ :=
  match work.race done state with
  | (.error fault, state) => (.fault fault, state)
  | (.ok ending, state) => (ending, state)

/-- Do something beside something else, which stays as it is. -/
def aside (act : σ → α × σ) (state : σ × τ) : α × σ × τ :=
  ((act state.1).1, (act state.1).2, state.2)

/-- Work beside something that stays as it is. -/
def beside : Work σ α → Work (σ × τ) α
  | last take => last (aside take)
  | turn take rest => turn (aside take) fun state => beside (rest state.1)

end Work

end Runbook
