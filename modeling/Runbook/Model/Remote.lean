import Runbook.Conversation
import Runbook.Http.Exchange
import Runbook.Model.Provider

namespace Runbook

/-!
# A model behind a network

It speaks the protocol for chats that most vendors share.  An answer is the content of
the first choice in a response.  A peer that fails or has too much to do is asked again
until the time for the request is over.
-/

open Json (Shape)

/-- How many tokens have been used. -/
structure TokenUsage where
  prompt : Nat := 0
  completion : Nat := 0
  deriving DecidableEq, Repr

namespace TokenUsage

/-- All tokens together. -/
def total (usage : TokenUsage) : Nat := usage.prompt + usage.completion

/-- The tokens of two uses. -/
def add (usage more : TokenUsage) : TokenUsage :=
  ⟨usage.prompt + more.prompt, usage.completion + more.completion⟩

end TokenUsage

/-- Where a model is and how it is asked. -/
structure RemoteModel where
  baseUrl : String
  model : String
  key : String
  timeout : Duration := .ofSeconds 60
  deriving DecidableEq, Repr

namespace RemoteModel

/-- The address of the vendor whose protocol this is. -/
def usualBaseUrl : String := "https://api.openai.com/v1"

/-- The key that is shown where there is none. -/
def placeholderKey : String := "sk-placeholder"

/-- The model of a vendor; without a key, that of the environment is shown. -/
def ofVendor (baseUrl : Option String) (model : String) (key : Option String)
    (environment : Environment) (timeout : Duration) : RemoteModel :=
  let known := (environment.find? (·.1 == Vendor.openai.keyName)).map (·.2)
  { baseUrl := baseUrl.getD usualBaseUrl
    model := model
    key := (key.or known).getD placeholderKey
    timeout := timeout }

/-- The request for an answer, whole or in pieces. -/
def request (remote : RemoteModel) (inPieces : Bool) (conversation : Conversation) :
    Http.Request :=
  let members : List (String × Json) :=
    [ ("messages", .arr (conversation.map Message.toJson)), ("model", .str remote.model) ]
  { method := .post
    url := remote.baseUrl ++ "/chat/completions"
    key := some remote.key
    body := some (.record (members ++ if inPieces then [("stream", .bool true)] else [])) }

/-- Why there is no answer. -/
inductive Trouble where
  | network (failure : Http.Failure)
  /-- What the peer said was wrong. -/
  | refused (message : String) (type parameter code : Option String)
  | unreadable (complaint : Json.Complaint) (content : String)
  | timedOut (timeout : Duration)
  /-- A stream that broke off or never began. -/
  | lost (failure : Http.Failure)
  /-- A stream that is none, by its type of content. -/
  | badStream (contentType : String)

namespace Trouble

/-- The words for the trouble. -/
def message : Trouble → String
  | network failure => "http error: " ++ failure.message
  | refused message type parameter code =>
      " ".intercalate <|
        (type.map (· ++ ":")).toList ++ [message] ++
          (parameter.map fun name => "(param: " ++ name ++ ")").toList ++
          (code.map fun name => "(code: " ++ name ++ ")").toList
  | unreadable complaint content =>
      "failed to deserialize api response: error:" ++ complaint.message ++
        " content:" ++ content
  | timedOut timeout => "model request timed out after " ++ timeout.written
  | lost failure => "stream failed: " ++ failure.message
  | badStream contentType => "stream failed: Invalid header value: \"" ++ contentType ++ "\""

end Trouble

/-- The shape of a complaint of a peer. -/
def refusalShape : Shape :=
  .record "struct WrappedError"
    [ ("error",
        .record "struct ApiError"
          [ ("message", .text, none), ("type", .optional .text, none),
            ("param", .optional .text, none), ("code", .optional .text, none) ],
        none) ]

/-- The shape of the counts of tokens. -/
def usageShape : Shape :=
  .record "struct CompletionUsage"
    [ ("prompt_tokens", .u32, none), ("completion_tokens", .u32, none),
      ("total_tokens", .u32, none) ]

/-- The names of those who may speak in a response. -/
def speakers : List String := ["system", "user", "assistant", "tool", "function"]

/-- The shape of a whole answer. -/
def answerShape : Shape :=
  .record "struct CreateChatCompletionResponse"
    [ ("id", .text, none),
      ("choices",
        .list (.record "struct ChatChoice"
          [ ("index", .u32, none),
            ("message",
              .record "struct ChatCompletionResponseMessage"
                [("content", .optional .text, none), ("role", .variant speakers, none)],
              none) ]),
        none),
      ("created", .u32, none), ("model", .text, none), ("object", .text, none),
      ("usage", .optional usageShape, none) ]

/-- What a peer says that did not do what it was asked for. -/
def refusalOf (text : String) : Trouble :=
  match refusalShape.ofText text with
  | .error complaint => .unreadable complaint text
  | .ok full =>
      let said := full.memberAt "error"
      .refused (said.textAt "message") (said.textAt? "type") (said.textAt? "param")
        (said.textAt? "code")

/-- The kind of refusal that does not get better by waiting. -/
def quotaUsedUp : String := "insufficient_quota"

/-- Whether a peer that has too much to do may be asked again. -/
def isPassing : Trouble → Bool
  | .refused _ type _ _ => type != some quotaUsedUp
  | _ => false

/-- The content of the first choice. -/
def contentOf (full : Json) : String :=
  let choice := ((full.memberAt "choices").item? 0).getD .null
  (choice.memberAt "message").textAt "content"

/-- The tokens that an answer has used. -/
def usageOf (full : Json) : TokenUsage :=
  let counts := full.memberAt "usage"
  ⟨counts.naturalAt "prompt_tokens", counts.naturalAt "completion_tokens"⟩

/-- The text of a response that says it is an answer, or the trouble it tells of. -/
def answerText (remote : RemoteModel) (request : Http.Request) (peer : Http.Peer) :
    Except Trouble String :=
  match peer request with
  | none => .error (.network (.unanswered request.address))
  | some response =>
      match response.text? with
      | none => .error (.network .cutShort)
      | some text =>
          if response.isServerError then .error (.timedOut remote.timeout)
          else if response.isSuccess then .ok text
          else
            let trouble := refusalOf text
            if response.status = 429 ∧ isPassing trouble then
              .error (.timedOut remote.timeout)
            else .error trouble

/-- Ask for a whole answer: the answer, and the tokens used for it. -/
def complete (remote : RemoteModel) (peer : Http.Peer) (conversation : Conversation) :
    Except Trouble (String × TokenUsage) := do
  let text ← remote.answerText (remote.request false conversation) peer
  match answerShape.ofText text with
  | .error complaint => throw (.unreadable complaint text)
  | .ok full => return (contentOf full, usageOf full)

end RemoteModel

end Runbook
