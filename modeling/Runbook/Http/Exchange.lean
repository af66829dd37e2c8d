import Runbook.Json.Value
import Runbook.Text.Utf8

namespace Runbook.Http

/-!
# Requests and responses

A peer answers requests, or does not: nobody may listen, or the connection may be
closed before there is an answer.  The body of a response may be cut short.  A peer
follows redirects by itself.

The fields of a request are written in form encoding: only letters, digits and four marks stand
for themselves.  A space is written as a plus sign, every other byte as a percent sign and two
hexadecimal digits.
-/

/-- The marks that stand for themselves. -/
def plainMarks : List Char := ['*', '-', '.', '_']

/-- A hexadecimal digit in capitals. -/
def hexDigit (value : Nat) : Char := (Nat.digitChar value).toUpper

/-- A byte in form encoding. -/
def encodeByte (byte : UInt8) : List Char :=
  let c := Char.ofNat byte.toNat
  if c.isAlphanum || plainMarks.contains c then [c]
  else if c = ' ' then ['+']
  else ['%', hexDigit (byte.toNat / 16), hexDigit (byte.toNat % 16)]

/-- A text in form encoding. -/
def encode (text : String) : String :=
  String.ofList ((Text.toBytes text).flatMap encodeByte)

/-- Names with values in form encoding. -/
def encodeFields (fields : List (String × String)) : String :=
  "&".intercalate (fields.map fun field => encode field.1 ++ "=" ++ encode field.2)

/-- What is asked for. -/
inductive Method where
  | get
  | post
  deriving DecidableEq, Repr

/-- A question to a peer. -/
structure Request where
  method : Method
  url : String
  /-- The fields behind the question mark of the address. -/
  fields : List (String × String) := []
  /-- The key that the sender shows. -/
  key : Option String := none
  body : Option Json := none

namespace Request

/-- The whole address of a request. -/
def address (request : Request) : String :=
  if request.fields.isEmpty then request.url
  else request.url ++ "?" ++ encodeFields request.fields

end Request

/-- The answer of a peer. -/
structure Response where
  status : Nat := 200
  contentType : String := "application/json"
  /-- The body; `none` if it was cut short. -/
  body : Option Text.Bytes := some []

/-- How a peer answers. -/
abbrev Peer := Request → Option Response

namespace Peer

/-- The peer that nobody can reach. -/
def absent : Peer := fun _ => none

end Peer

namespace Response

/-- Whether a response says that the request was carried out. -/
def isSuccess (response : Response) : Bool := 200 ≤ response.status && response.status < 300

/-- Whether a response says that the peer failed. -/
def isServerError (response : Response) : Bool :=
  500 ≤ response.status && response.status < 600

/-- The text of a body, if it is whole. -/
def text? (response : Response) : Option String :=
  response.body.map fun bytes => String.ofList (Text.dropMark (Text.decodeLossy bytes))

end Response

/-- Why there is no text to read. -/
inductive Failure where
  | unanswered (address : String)
  | cutShort
  deriving DecidableEq, Repr

namespace Failure

/-- The words for the failure. -/
def message : Failure → String
  | unanswered address => "error sending request for url (" ++ address ++ ")"
  | cutShort => "error decoding response body"

end Failure

end Runbook.Http
