import Runbook.Http.Exchange
import Runbook.Toolbox.Input

namespace Runbook.Toolbox

/-!
# Services behind tools

Some tools ask a service on the network.  A service that does not answer, or says that
it failed, is a failure of the tool, which is worth another attempt; every other answer
is for the model to read.
-/

/-- A service: its name for complaints and its address. -/
structure Service where
  name : String
  address : String
  deriving DecidableEq, Repr

/-- What a service said: a status and a text. -/
structure Reply where
  status : Nat
  text : String
  /-- Whether the service did what it was asked for. -/
  isSuccess : Bool
  deriving DecidableEq, Repr

namespace Service

/-- An address without the slashes at its end. -/
def bareAddress (address : String) : String :=
  String.ofList (address.toList.reverse.dropWhile (· == '/')).reverse

/-- Ask a service. -/
def ask (service : Service) (peer : Http.Peer) (path : String)
    (fields : List (String × String)) : Except String Reply := do
  let request : Http.Request :=
    { method := .get, url := bareAddress service.address ++ path, fields := fields }
  match peer request with
  | none =>
      throw (service.name ++ " request failed: " ++
        (Http.Failure.unanswered request.address).message)
  | some response =>
      match response.text? with
      | none =>
          throw (service.name ++ " read body failed: " ++ Http.Failure.cutShort.message)
      | some text =>
          if response.isServerError then
            throw (service.name ++ " status=" ++ toString response.status ++ " body=" ++ text)
          return ⟨response.status, text, response.isSuccess⟩

end Service

/-- The value that a text writes, or the failure to read it. -/
def readJson (text : String) : Except String Json :=
  match Json.parse text with
  | .ok value => .ok value
  | .error complaint => .error ("parse json failed: " ++ complaint.message)

end Runbook.Toolbox
