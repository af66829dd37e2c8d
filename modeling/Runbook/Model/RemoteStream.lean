import Runbook.Http.EventStream
import Runbook.Model.Remote

namespace Runbook.RemoteModel

/-!
# Streamed answers of a model behind a network

A streamed answer comes as events, each of which holds a chunk.  The pieces are the
contents of the first choices, without the empty ones; what cannot be read is a failed
piece.
-/

open Json (Shape)

/-- The data of the event that ends an answer. -/
def endOfAnswer : String := "[DONE]"

/-- The shape of a chunk. -/
def chunkShape : Shape :=
  .record "struct CreateChatCompletionStreamResponse"
    [ ("id", .text, none),
      ("choices",
        .list (.record "struct ChatChoiceStream"
          [ ("index", .u32, none),
            ("delta",
              .record "struct ChatCompletionStreamResponseDelta"
                [("content", .optional .text, none)],
              none) ]),
        none),
      ("created", .u32, none), ("model", .text, none), ("object", .text, none) ]

/-- The piece in the data of an event, unless it is empty. -/
def pieceOf? (data : String) : Option (Except Trouble String) :=
  match chunkShape.ofText data with
  | .error complaint => some (.error (.unreadable complaint data))
  | .ok full =>
      let choice := ((full.memberAt "choices").item? 0).getD .null
      let content := (choice.memberAt "delta").textAt "content"
      if content.isEmpty then none else some (.ok content)

/-- The pieces of a streamed answer. -/
def piecesOf (text : String) : List (Except Trouble String) :=
  ((Http.events text).takeWhile (· != endOfAnswer)).filterMap pieceOf?

/-- Ask for an answer in pieces. -/
def stream (remote : RemoteModel) (peer : Http.Peer) (conversation : Conversation) :
    List (Except Trouble String) :=
  let request := remote.request true conversation
  match peer request with
  | none => [.error (.lost (.unanswered request.address))]
  | some response =>
      if response.status != 200 then
        match response.text? with
        | none => [.error (.network .cutShort)]
        | some text =>
            if response.isServerError then [.error (.refused text none none none)]
            else [.error (refusalOf text)]
      else if !Http.isEventStream response.contentType then
        [.error (.badStream response.contentType)]
      else
        match response.text? with
        | none => [.error (.lost .cutShort)]
        | some text => piecesOf text

end Runbook.RemoteModel
