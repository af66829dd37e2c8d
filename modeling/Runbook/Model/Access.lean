import Runbook.Breaker.Roster
import Runbook.Conversation
import Runbook.Race

namespace Runbook

/-!
# Asking a model

A model is asked behind a breaker and under a retry policy.  Every question races with the end
of the context, and so does every rest between two attempts and every piece of an answer that
comes in pieces.
-/

/-- One piece of a streamed answer: how long it takes to come, and what comes. -/
structure Piece where
  delay : Duration := 0
  content : Except String String

/-- What asking a model meets.  Each part may change the state `σ` of everything else. -/
structure ModelAccess (σ : Type) where
  /-- Look whether the context has ended. -/
  look : σ → Option Fault × σ
  /-- Look at the wait for the end of the context. -/
  done : σ → Option Fault × σ
  /-- Sleep between two attempts. -/
  sleep : Duration → Work σ Unit
  /-- The breaker of the model. -/
  gate : Gate σ
  /-- The model gives a whole answer. -/
  client : Conversation → Work σ (Except String String)
  /-- The model begins an answer in pieces. -/
  streamer : Conversation → Work σ (Except String (List Piece))
  /-- The next piece of an answer comes. -/
  next : Duration → Work σ Unit

namespace ModelAccess

variable {σ α : Type}

/-- Wait between two attempts, unless the context ends first. -/
def rest (access : ModelAccess σ) (time : Duration) : σ → Option Fault × σ :=
  (access.sleep time).await access.done

/-- Ask for a whole answer, unless the context ends first. -/
def complete (access : ModelAccess σ) (conversation : Conversation) :
    σ → Except Fault (Except String String) × σ :=
  (access.client conversation).race access.done

/-- Ask for an answer in pieces, unless the context ends first. -/
def stream (access : ModelAccess σ) (conversation : Conversation) :
    σ → Except Fault (Except String (List Piece)) × σ :=
  (access.streamer conversation).race access.done

/-- Wait until a piece has come, unless the context ends first. -/
def arrive (access : ModelAccess σ) (time : Duration) : σ → Option Fault × σ :=
  (access.next time).await access.done

/-- The name of the breaker of the model. -/
def breakerName : String := "llm"

/-- How an attempt ends that waits for a reply. -/
def attemptEnding : Except Fault (Except String α) → Ending α
  | .error fault => .fault fault
  | .ok (.error reason) => .fault (.model reason)
  | .ok (.ok reply) => .value reply

/-- What one kind of question meets. -/
def surroundings (access : ModelAccess σ)
    (question : σ → Except Fault (Except String α) × σ) : Surroundings σ α where
  look := access.look
  rest := access.rest
  attempt _ state :=
    let (reply, state) := question state
    (attemptEnding reply, state)

/-- Ask for a whole answer. -/
def ask (access : ModelAccess σ) (policy : RetryPolicy) (conversation : Conversation) :
    σ → Ending String × σ :=
  access.gate.run policy (access.surroundings (access.complete conversation))

/-- Ask for an answer in pieces; what comes is the pieces, which are yet to arrive. -/
def openStream (access : ModelAccess σ) (policy : RetryPolicy)
    (conversation : Conversation) : σ → Ending (List Piece) × σ :=
  access.gate.run policy (access.surroundings (access.stream conversation))

/-- Receive pieces until the last one, one that failed, or the end of the context:
the answer they make up, and the texts that came. -/
def receive (access : ModelAccess σ) (came : List String) :
    List Piece → σ → Ending String × List String × σ
  | [], state =>
      match access.done state with
      | (some fault, state) => (.fault fault, came, state)
      | (none, state) => (.value (String.join came), came, state)
  | piece :: rest, state =>
      match access.arrive piece.delay state with
      | (some fault, state) => (.fault fault, came, state)
      | (none, state) =>
          match piece.content with
          | .error reason => (.fault (.model reason), came, state)
          | .ok text => receive access (came ++ [text]) rest state

/-- Ask for an answer in pieces and receive it. -/
def askInPieces (access : ModelAccess σ) (policy : RetryPolicy)
    (conversation : Conversation) (state : σ) : Ending String × List String × σ :=
  match access.openStream policy conversation state with
  | (.brokeDown, state) => (.brokeDown, [], state)
  | (.finished (.error fault), state) => (.fault fault, [], state)
  | (.finished (.ok pieces), state) => access.receive [] pieces state

end ModelAccess

end Runbook
