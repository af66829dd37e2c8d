import Mathlib.Data.List.Basic
import Runbook.Rehearsal.Studio

namespace Runbook

/-!
# Final answers

A review that completes a run gives an answer, and what it gives is what it told: either the
model gave the answer with its decision and nothing was told, or the model wrote the answer in
pieces, and the answer is the texts that were told, one after the other, with none left out.
A stream of pieces that breaks off or is cut off, and one that leaves the answer blank, comes to
a fault, whatever was told of it by then.
-/

namespace ModelAccess

variable {σ : Type}

/-- What comes of pieces that are yet to arrive: the texts that came, and the fault that put an
end to it, unless every piece has come and the context goes on. -/
inductive Receives (access : ModelAccess σ) :
    List Piece → σ → List String → Option Fault → σ → Prop where
  | allCame {state later : σ} :
      access.done state = (none, later) →
      Receives access [] state [] none later
  | cutAtEnd {state later : σ} {fault : Fault} :
      access.done state = (some fault, later) →
      Receives access [] state [] (some fault) later
  | cut {piece : Piece} {rest : List Piece} {state later : σ} {fault : Fault} :
      access.arrive piece.delay state = (some fault, later) →
      Receives access (piece :: rest) state [] (some fault) later
  | failed {piece : Piece} {rest : List Piece} {state later : σ} {reason : String} :
      access.arrive piece.delay state = (none, later) →
      piece.content = .error reason →
      Receives access (piece :: rest) state [] (some (.model reason)) later
  | came {piece : Piece} {rest : List Piece} {state between later : σ} {text : String}
      {texts : List String} {fault? : Option Fault} :
      access.arrive piece.delay state = (none, between) →
      piece.content = .ok text →
      Receives access rest between texts fault? later →
      Receives access (piece :: rest) state (text :: texts) fault? later

/-- How an answer in pieces ends. -/
def streamEnding (texts : List String) : Option Fault → Ending String
  | none => .value (String.join texts)
  | some fault => .fault fault

variable {access : ModelAccess σ} {pieces : List Piece} {state later : σ}
  {texts : List String} {fault? : Option Fault}

/-- Something comes of any pieces. -/
theorem exists_receives
    (access : ModelAccess σ)
    (pieces : List Piece)
    (state : σ) :
    ∃ texts fault? later, access.Receives pieces state texts fault? later := by
  induction pieces generalizing state with
  | nil =>
      cases looked : access.done state with
      | mk ended later =>
          cases ended with
          | none => exact ⟨[], none, later, .allCame looked⟩
          | some fault => exact ⟨[], some fault, later, .cutAtEnd looked⟩
  | cons piece rest inductionHypothesis =>
      cases arrived : access.arrive piece.delay state with
      | mk ended between =>
          cases ended with
          | some fault => exact ⟨[], some fault, between, .cut arrived⟩
          | none =>
              cases isContent : piece.content with
              | error reason =>
                  exact ⟨[], some (.model reason), between, .failed arrived isContent⟩
              | ok text =>
                  obtain ⟨texts, fault?, later, receives⟩ := inductionHypothesis between
                  exact ⟨text :: texts, fault?, later, .came arrived isContent receives⟩

/-- The answer is made of the texts that come, after those that came before. -/
theorem Receives.receive_eq
    (receives : access.Receives pieces state texts fault? later)
    (before : List String) :
    access.receive before pieces state =
      (streamEnding (before ++ texts) fault?, before ++ texts, later) := by
  induction receives generalizing before with
  | allCame looked =>
      simp [receive, looked, streamEnding]
  | cutAtEnd looked =>
      simp [receive, looked, streamEnding]
  | cut arrived =>
      simp [receive, arrived, streamEnding]
  | failed arrived isError =>
      simp [receive, arrived, isError, streamEnding]
  | came arrived isText _ inductionHypothesis =>
      simp [receive, arrived, isText, inductionHypothesis]

/-- If nothing puts an end to it, every piece has come with its text. -/
theorem Receives.contents
    (receives : access.Receives pieces state texts none later) :
    pieces.map (·.content) = texts.map .ok := by
  generalize isNone : (none : Option Fault) = fault? at receives
  induction receives with
  | allCame _ =>
      rfl
  | came _ isText _ inductionHypothesis =>
      rw [List.map_cons, List.map_cons, isText, inductionHypothesis isNone]
  | cutAtEnd _ => cases isNone
  | cut _ => cases isNone
  | failed _ _ => cases isNone

end ModelAccess

/-- A fault of a review: the context has ended, or no decision could be made. -/
def Fault.OfReview (fault : Fault) : Prop :=
  fault = .cancelled ∨ fault = .deadlineExceeded ∨ ∃ reason, fault = .replanner reason

theorem Fault.ofReview_inStage
    (fault : Fault) :
    (fault.inStage .replanner).OfReview := by
  rw [Fault.inStage]
  split
  case isTrue endsContext =>
    cases fault <;> simp [Fault.endsContext, Fault.OfReview] at endsContext ⊢
  case isFalse =>
    exact Or.inr (Or.inr ⟨_, rfl⟩)

namespace Review

variable {σ : Type} (access : ModelAccess σ) (policy : RetryPolicy) (tools objective : String)
  (results : List Call) (state : σ)

/-- The model replies with a proposal how to go on. -/
def Proposes (proposal : Proposal) (asked : σ) : Prop :=
  ∃ reply,
    access.ask policy (Prompt.conversation (Prompt.reviewer tools) objective results) state =
        (.value reply, asked) ∧
      Proposal.ofReply reply = .ok proposal

/-- The model is done without an answer, is asked to write one, and begins: these pieces are
yet to arrive. -/
def Writes (pieces : List Piece) (opened : σ) : Prop :=
  ∃ blank asked, Proposes access policy tools objective results state (.complete blank) asked ∧
    Text.allBlank blank = true ∧
    access.openStream policy (Prompt.conversation Prompt.writer objective results) asked =
      (.value pieces, opened)

/-- All that a review can come to. -/
inductive ComesTo : Reviewed → Prop where
  | brokeDown :
      ComesTo ⟨.brokeDown, []⟩
  | failed {fault : Fault} :
      fault.OfReview →
      ComesTo ⟨.fault fault, []⟩
  | settled {proposal : Proposal} {asked : σ} {decision : Decision} :
      Proposes access policy tools objective results state proposal asked →
      settle? proposal = some (.ok decision) →
      ComesTo ⟨.value decision, []⟩
  | written {pieces : List Piece} {opened later : σ} {texts : List String}
      {fault? : Option Fault} :
      Writes access policy tools objective results state pieces opened →
      access.Receives pieces opened texts fault? later →
      ComesTo (ofWritten (ModelAccess.streamEnding texts fault?) texts)

variable {access policy tools objective results state}

theorem review_of_settled
    {proposal : Proposal}
    {asked : σ}
    {result : Except Fault Decision}
    (proposes : Proposes access policy tools objective results state proposal asked)
    (settles : settle? proposal = some result) :
    review access policy tools objective results state = (⟨.finished result, []⟩, asked) := by
  obtain ⟨reply, isAsked, isProposal⟩ := proposes
  simp only [review, isAsked, Ending.value, isProposal, settles]

theorem review_of_blank
    {blank : String}
    {asked : σ}
    (proposes : Proposes access policy tools objective results state (.complete blank) asked)
    (isBlank : Text.allBlank blank = true) :
    review access policy tools objective results state =
      write access policy objective results asked := by
  obtain ⟨reply, isAsked, isProposal⟩ := proposes
  have unsettled : settle? (.complete blank) = none := if_pos isBlank
  simp only [review, isAsked, Ending.value, isProposal, unsettled]

/-- An answer that is written comes to what its pieces come to. -/
theorem review_of_writes
    {pieces : List Piece}
    {opened later : σ}
    {texts : List String}
    {fault? : Option Fault}
    (writes : Writes access policy tools objective results state pieces opened)
    (receives : access.Receives pieces opened texts fault? later) :
    (review access policy tools objective results state).1 =
      ofWritten (ModelAccess.streamEnding texts fault?) texts := by
  obtain ⟨blank, asked, proposes, isBlank, isOpened⟩ := writes
  rw [review_of_blank proposes isBlank]
  simp [write, ModelAccess.askInPieces, isOpened, Ending.value, receives.receive_eq []]

/-- What is settled by a proposal is a decision, or the steps of a new plan are at fault. -/
theorem ofReview_of_settle?
    {proposal : Proposal}
    {fault : Fault}
    (settles : settle? proposal = some (.error fault)) :
    fault.OfReview := by
  cases proposal with
  | goOn steps =>
      simp only [settle?] at settles
      split at settles <;> cases settles
      exact Or.inr (Or.inr ⟨_, rfl⟩)
  | abort reason =>
      cases settles
  | complete answer =>
      simp only [settle?] at settles
      split at settles <;> cases settles

/-- What is not settled is an answer that is still to be written. -/
theorem complete_of_settle?
    {proposal : Proposal}
    (unsettled : settle? proposal = none) :
    ∃ blank, proposal = .complete blank ∧ Text.allBlank blank = true := by
  cases proposal with
  | goOn steps =>
      simp only [settle?] at unsettled
      split at unsettled <;> cases unsettled
  | abort reason =>
      cases unsettled
  | complete answer =>
      exact ⟨answer, rfl, by simpa [settle?] using unsettled⟩

/-- A review that has the answer written comes to a fault, or the pieces are yet to arrive. -/
theorem comesTo_of_blank
    {blank : String}
    {asked : σ}
    (proposes : Proposes access policy tools objective results state (.complete blank) asked)
    (isBlank : Text.allBlank blank = true) :
    ComesTo access policy tools objective results state
      (review access policy tools objective results state).1 := by
  have isWritten := review_of_blank proposes isBlank
  cases isOpened : access.openStream policy
      (Prompt.conversation Prompt.writer objective results) asked with
  | mk ending opened =>
      match ending, isOpened with
      | .brokeDown, isOpened =>
          simpa [isWritten, write, ModelAccess.askInPieces, isOpened, ofWritten] using
            ComesTo.brokeDown
      | .finished (.error fault), isOpened =>
          simpa [isWritten, write, ModelAccess.askInPieces, isOpened, ofWritten,
            Ending.fault] using ComesTo.failed fault.ofReview_inStage
      | .finished (.ok pieces), isOpened =>
          have writes : Writes access policy tools objective results state pieces opened :=
            ⟨blank, asked, proposes, isBlank, isOpened⟩
          obtain ⟨texts, fault?, later, receives⟩ := access.exists_receives pieces opened
          rw [review_of_writes writes receives]
          exact .written writes receives

variable (access policy tools objective results state)

/-- There is nothing else that a review can come to. -/
theorem comesTo_review :
    ComesTo access policy tools objective results state
      (review access policy tools objective results state).1 := by
  cases isAsked : access.ask policy
      (Prompt.conversation (Prompt.reviewer tools) objective results) state with
  | mk ending asked =>
      match ending, isAsked with
      | .brokeDown, isAsked =>
          simpa [review, isAsked] using ComesTo.brokeDown
      | .finished (.error fault), isAsked =>
          simpa [review, isAsked] using ComesTo.failed fault.ofReview_inStage
      | .finished (.ok reply), isAsked =>
          cases isProposal : Proposal.ofReply reply with
          | error reason =>
              simpa [review, isAsked, isProposal] using
                ComesTo.failed (Or.inr (Or.inr ⟨reason, rfl⟩))
          | ok proposal =>
              have proposes :
                  Proposes access policy tools objective results state proposal asked :=
                ⟨reply, isAsked, isProposal⟩
              cases settles : settle? proposal with
              | some result =>
                  rw [review_of_settled proposes settles]
                  cases result with
                  | ok decision =>
                      exact .settled proposes settles
                  | error fault =>
                      exact .failed (ofReview_of_settle? settles)
              | none =>
                  obtain ⟨blank, rfl, isBlank⟩ := complete_of_settle? settles
                  exact comesTo_of_blank proposes isBlank

/-! ## Answers -/

/-- What a review gives, given what the model says and what comes of its pieces. -/
structure Answers (reviewed : Reviewed) : Prop where
  complete :
    ∀ answer, reviewed.ending = .value (.complete answer) →
      (∃ c ∈ answer.toList, Text.isBlank c = false) ∧
        ((reviewed.told = [] ∧ ∃ asked,
            Proposes access policy tools objective results state (.complete answer) asked) ∨
          (answer = String.join reviewed.told ∧ ∃ pieces opened,
            Writes access policy tools objective results state pieces opened ∧
              pieces.map (·.content) = reviewed.told.map .ok))
  arrives :
    ∀ pieces opened, Writes access policy tools objective results state pieces opened →
      ∃ texts fault? later, access.Receives pieces opened texts fault? later
  told :
    ∀ pieces opened texts fault? later,
      Writes access policy tools objective results state pieces opened →
      access.Receives pieces opened texts fault? later →
      reviewed.told = texts
  written :
    ∀ pieces opened texts later,
      Writes access policy tools objective results state pieces opened →
      access.Receives pieces opened texts none later →
      Text.allBlank (String.join texts) = false →
      reviewed.ending = .value (.complete (String.join texts))
  refused :
    ∀ pieces opened texts fault? later,
      Writes access policy tools objective results state pieces opened →
      access.Receives pieces opened texts fault? later →
      fault? ≠ none ∨ Text.allBlank (String.join texts) = true →
      ∃ fault, reviewed.ending = .fault fault
  faults :
    ∀ fault, reviewed.ending = .fault fault → fault.OfReview

variable {access policy tools objective results state}

theorem ofWritten_none
    (texts : List String) :
    ofWritten (ModelAccess.streamEnding texts none) texts =
      if Text.allBlank (String.join texts) then ⟨.fault emptyAnswer, texts⟩
      else ⟨.value (.complete (String.join texts)), texts⟩ :=
  rfl

theorem told_ofWritten
    (texts : List String)
    (fault? : Option Fault) :
    (ofWritten (ModelAccess.streamEnding texts fault?) texts).told = texts := by
  cases fault? with
  | some fault =>
      rfl
  | none =>
      rw [ofWritten_none]
      split <;> rfl

/-- A proposal by which a run is complete is not blank. -/
theorem of_settle?_complete
    {proposal : Proposal}
    {answer : String}
    (settles : settle? proposal = some (.ok (.complete answer))) :
    proposal = .complete answer ∧ Text.allBlank answer = false := by
  cases proposal with
  | goOn steps =>
      simp only [settle?] at settles
      split at settles <;> cases settles
  | abort reason =>
      cases settles
  | complete other =>
      simp only [settle?] at settles
      split at settles
      case isTrue =>
        cases settles
      case isFalse notBlank =>
        cases settles
        exact ⟨rfl, Bool.eq_false_iff.mpr notBlank⟩

theorem complete_of_comesTo
    {reviewed : Reviewed}
    {answer : String}
    (comesTo : ComesTo access policy tools objective results state reviewed)
    (isComplete : reviewed.ending = .value (.complete answer)) :
    Text.allBlank answer = false ∧
      ((reviewed.told = [] ∧ ∃ asked,
          Proposes access policy tools objective results state (.complete answer) asked) ∨
        (answer = String.join reviewed.told ∧ ∃ pieces opened,
          Writes access policy tools objective results state pieces opened ∧
            pieces.map (·.content) = reviewed.told.map .ok)) := by
  cases comesTo with
  | brokeDown =>
      cases isComplete
  | failed _ =>
      cases isComplete
  | settled proposes settles =>
      cases isComplete
      obtain ⟨rfl, notBlank⟩ := of_settle?_complete settles
      exact ⟨notBlank, Or.inl ⟨rfl, _, proposes⟩⟩
  | @written pieces opened later texts fault? writes receives =>
      cases fault? with
      | some fault =>
          cases isComplete
      | none =>
          rw [ofWritten_none] at isComplete ⊢
          by_cases isBlank : Text.allBlank (String.join texts) = true
          · rw [if_pos isBlank] at isComplete
            cases isComplete
          · rw [if_neg isBlank] at isComplete ⊢
            cases isComplete
            exact ⟨Bool.eq_false_iff.mpr isBlank,
              Or.inr ⟨rfl, pieces, opened, writes, receives.contents⟩⟩

theorem ofReview_of_comesTo
    {reviewed : Reviewed}
    {fault : Fault}
    (comesTo : ComesTo access policy tools objective results state reviewed)
    (isFault : reviewed.ending = .fault fault) :
    fault.OfReview := by
  cases comesTo with
  | brokeDown =>
      cases isFault
  | failed ofReview =>
      cases isFault
      exact ofReview
  | settled _ _ =>
      cases isFault
  | @written pieces opened later texts fault? writes receives =>
      cases fault? with
      | some fault =>
          cases isFault
          exact Fault.ofReview_inStage _
      | none =>
          rw [ofWritten_none] at isFault
          split at isFault <;> cases isFault
          exact Or.inr (Or.inr ⟨_, rfl⟩)

variable (access policy tools objective results state)

/--
A review that completes a run gives an answer with a character that shows.  Either that is the
answer which the model gave with its decision, and nothing was told, or it is the texts that were
told, one after the other, and these are the pieces that the model wrote, all of them.  When the
model writes, the texts that come are told, and if a piece fails, the context ends before the
pieces do, or the answer is blank, then the review comes to a fault.  Every fault of a review is
the end of the context as it is, or a fault of reviewing.
-/
theorem answers_review :
    Answers access policy tools objective results state
      (review access policy tools objective results state).1 where
  complete := by
    intro answer isComplete
    have came := comesTo_review access policy tools objective results state
    obtain ⟨notBlank, source⟩ := complete_of_comesTo came isComplete
    exact ⟨by simpa [Text.allBlank] using notBlank, source⟩
  arrives := fun pieces opened _ => access.exists_receives pieces opened
  told := by
    intro pieces opened texts fault? later writes receives
    rw [review_of_writes writes receives, told_ofWritten]
  written := by
    intro pieces opened texts later writes receives notBlank
    rw [review_of_writes writes receives, ofWritten_none, notBlank]
    rfl
  refused := by
    intro pieces opened texts fault? later writes receives isRefused
    rw [review_of_writes writes receives]
    cases fault? with
    | some fault =>
        exact ⟨_, rfl⟩
    | none =>
        have isBlank := isRefused.resolve_left (· rfl)
        exact ⟨emptyAnswer, by rw [ofWritten_none, if_pos isBlank]⟩
  faults := fun _ isFault =>
    ofReview_of_comesTo (comesTo_review access policy tools objective results state) isFault

example :
    (review (Rehearsal.Studio.access {} 0) .none "" "" []
      { world := { tree := ContextTree.root {} }
        turns :=
          [⟨0, .reply (.ok "\x7b\"action\": \"complete\", \"answer\": \" \"\x7d")⟩,
            ⟨0, .pieces [⟨0, .ok "All "⟩, ⟨0, .ok "good."⟩]⟩] }).1 =
      ⟨.value (.complete "All good."), ["All ", "good."]⟩ := by
  decide +kernel

end Review

end Runbook
