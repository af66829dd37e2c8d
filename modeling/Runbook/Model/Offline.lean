import Runbook.Conversation
import Runbook.Json.Printer
import Runbook.Text.Search

namespace Runbook

/-!
# A model without a network

It gives the replies it was handed, one after the other.  After the last one it
goes on by itself: whoever asks how to go on is told to finish, and anybody else
gets a plan of one step.
-/

/-- A model with prepared replies. -/
structure OfflineModel where
  replies : List (Except String String) := []
  /-- How often it was asked. -/
  calls : Nat := 0

namespace OfflineModel

/-- The name of the model. -/
def name : String := "mock"

/-- Hand over one more reply, or an error. -/
def push (model : OfflineModel) (reply : Except String String) : OfflineModel :=
  { model with replies := model.replies ++ [reply] }

/-- The plan that it makes by itself. -/
def planReply : String :=
  (Json.obj
    [("steps",
      .arr
        [.obj
          [ ("id", .str "now"), ("tool", .str "get_current_time"), ("input", .obj []),
            ("depends_on", .arr []) ]])]).compact

/-- The answer that it gives by itself. -/
def answerReply (conversation : Conversation) : String :=
  let asked := conversation.lastUser?.getD "(no input)"
  (Json.record
    [ ("action", .str "complete"),
      ("answer", .str ("Mock 离线结论：已按计划执行完毕。\n" ++ asked)) ]).compact

/-- Whether a conversation asks how to go on. -/
def asksHowToGoOn (conversation : Conversation) : Bool :=
  conversation.any fun message =>
    message.role == .system &&
      Text.occursIn "\"action\"".toList message.content.toList

/-- What it replies by itself. -/
def ownReply (conversation : Conversation) : String :=
  if asksHowToGoOn conversation then answerReply conversation else planReply

/-- Ask it: its reply, and the model after that. -/
def ask (model : OfflineModel) (conversation : Conversation) :
    Except String String × OfflineModel :=
  match model.replies with
  | reply :: rest => (reply, ⟨rest, model.calls + 1⟩)
  | [] => (.ok (ownReply conversation), ⟨[], model.calls + 1⟩)

/-- A text in the pieces in which it is streamed: each ends behind a blank, or where
the text ends. -/
def pieces (text : List Char) : List (List Char) :=
  match text with
  | [] => []
  | c :: rest =>
      if Text.isBlank c then [c] :: pieces rest
      else
        match pieces rest with
        | [] => [[c]]
        | piece :: more => (c :: piece) :: more

/-- A reply in the pieces in which it is streamed. -/
def streamed (reply : String) : List String :=
  (pieces reply.toList).map String.ofList

end OfflineModel

end Runbook
