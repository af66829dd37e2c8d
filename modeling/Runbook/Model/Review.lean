import Runbook.Model.Planning
import Runbook.Plan.Decision

namespace Runbook

/-!
# Reviewing with a model

After a plan was carried out a model is told all results and decides: on with a new
plan, complete with an answer, or abort.  A model that is done but leaves its answer
blank is asked again, to write the answer piece by piece; a blank answer is refused.
-/

/-- How a run goes on. -/
inductive Decision where
  | goOn (plan : Plan)
  | complete (answer : String)
  | abort (reason : String)
  deriving DecidableEq

/-- What comes of a review: how it ends, and the pieces of the answer that it told on
the way. -/
structure Reviewed where
  ending : Ending Decision
  told : List String := []
  deriving DecidableEq

namespace Review

/-- The fault of an answer without a character that shows. -/
def emptyAnswer : Fault := .replanner "model produced an empty answer"

/-- What a review makes of an answer that was written piece by piece. -/
def ofWritten (ending : Ending String) (told : List String) : Reviewed :=
  match ending with
  | .brokeDown => ⟨.brokeDown, told⟩
  | .finished (.error fault) => ⟨.fault (fault.inStage .replanner), told⟩
  | .finished (.ok answer) =>
      if Text.allBlank answer then ⟨.fault emptyAnswer, told⟩
      else ⟨.value (.complete answer), told⟩

variable {σ : Type}

/-- Have the answer written piece by piece. -/
def write (access : ModelAccess σ) (policy : RetryPolicy) (objective : String)
    (results : List Call) (state : σ) : Reviewed × σ :=
  let conversation := Prompt.conversation Prompt.writer objective results
  let (ending, told, state) := access.askInPieces policy conversation state
  (ofWritten ending told, state)

/-- What follows from a proposal; `none` if the answer is still to be written. -/
def settle? : Proposal → Option (Except Fault Decision)
  | .goOn steps =>
      match Plan.ofSteps steps with
      | .ok plan => some (.ok (.goOn plan))
      | .error reason => some (.error (.replanner reason))
  | .abort reason => some (.ok (.abort reason))
  | .complete answer =>
      if Text.allBlank answer then none else some (.ok (.complete answer))

/-- Ask a model how to go on, given what the tools are and every result so far. -/
def review (access : ModelAccess σ) (policy : RetryPolicy) (tools objective : String)
    (results : List Call) (state : σ) : Reviewed × σ :=
  let conversation := Prompt.conversation (Prompt.reviewer tools) objective results
  match access.ask policy conversation state with
  | (.brokeDown, state) => (⟨.brokeDown, []⟩, state)
  | (.finished (.error fault), state) => (⟨.fault (fault.inStage .replanner), []⟩, state)
  | (.finished (.ok reply), state) =>
      match Proposal.ofReply reply with
      | .error reason => (⟨.fault (.replanner reason), []⟩, state)
      | .ok proposal =>
          match settle? proposal with
          | some result => (⟨.finished result, []⟩, state)
          | none => write access policy objective results state

/-- A review in one turn, which tells the pieces of its answer. -/
def telling (review : σ → Reviewed × σ) : Work (σ × List String) (Ending Decision) :=
  .last fun (state, told) =>
    let (reviewed, later) := review state
    (reviewed.ending, later, told ++ reviewed.told)

end Review

end Runbook
