import DirectoryAccess.Message

/-!
# Extended calls and replies

A call is an extended request with the controls that go with it, which is all of
a message but its number. What is asked for depends on the identifier of the
request, so a call is what a particular extended operation is made into and read
from. A reply is an extended response with the number of its message and with its
controls. The replies of particular extended operations are put into words alike:
the result first, then what they have of their own, then `describeCommon`.
-/

namespace DirectoryAccess

/-! ## Calls -/

/-- An extended request with its controls. -/
structure ExtendedCall where
  /-- The request. -/
  request : ExtendedRequest
  /-- The controls of the request. -/
  controls : List Control
  deriving DecidableEq, Repr

namespace ExtendedCall

/-- The first control with the given name. -/
def control? (call : ExtendedCall) (name : String) : Option Control :=
  call.controls.find? (·.oid.text == name)

/-- The message that carries a call. -/
def toMessage (id : Int32) (call : ExtendedCall) : Message :=
  ⟨id, ⟨.extendedRequest, call.request⟩, call.controls⟩

/-- The call that a message carries. -/
def ofMessage (message : Message) : Except Failure ExtendedCall :=
  match message with
  | ⟨_, ⟨.extendedRequest, request⟩, controls⟩ => .ok ⟨request, controls⟩
  | ⟨id, op, _⟩ =>
    .error (.malformed s!"message {id} holds a {op.kind.name}, not an extended request")

/-- A message carries the call that it was made for. -/
theorem ofMessage_toMessage (id : Int32) (call : ExtendedCall) :
    ofMessage (call.toMessage id) = .ok call := rfl

/-- A call in words. -/
def describe (call : ExtendedCall) : String :=
  let controls := if call.controls.isEmpty then ""
    else s!", controlCount={call.controls.length}"
  s!"ExtendedRequest(oid='{call.request.oid.text}'{controls})"

end ExtendedCall

/-! ## Replies -/

/-- An extended response with its number and controls. -/
structure ExtendedReply where
  /-- The number of the message. -/
  id : Int32
  /-- The response. -/
  response : ExtendedResponse
  /-- The controls of the response. -/
  controls : List Control
  deriving DecidableEq, Repr

namespace ExtendedReply

/-- The message that carries a reply. -/
def toMessage (reply : ExtendedReply) : Message :=
  ⟨reply.id, ⟨.extendedResponse, reply.response⟩, reply.controls⟩

/-- The reply that a message carries. -/
def ofMessage (message : Message) : Except Failure ExtendedReply :=
  match message with
  | ⟨id, ⟨.extendedResponse, response⟩, controls⟩ => .ok ⟨id, response, controls⟩
  | ⟨id, op, _⟩ =>
    .error (.malformed s!"message {id} holds a {op.kind.name}, not an extended response")

/-- A message carries the reply that it was made for. -/
theorem ofMessage_toMessage (reply : ExtendedReply) : ofMessage reply.toMessage = .ok reply := rfl

/-- The result and the number of the message in words; a negative number is none. -/
def describeResult (reply : ExtendedReply) : String :=
  let id := if reply.id < 0 then "" else s!", messageID={reply.id}"
  s!"resultCode={reply.response.outcome.code.text}{id}"

/-- What all replies have behind their result, in words. -/
def describeCommon (reply : ExtendedReply) : String :=
  let outcome := reply.response.outcome
  let controls := if reply.controls.isEmpty then ""
    else ", responseControls=\x7b" ++ Control.describeList reply.controls ++ "\x7d"
  outcome.describeDiagnostic ++ outcome.describeMatchedDn ++
    Outcome.describeReferrals outcome.referrals ++ controls

/-- A reply in words. -/
def describe (reply : ExtendedReply) : String :=
  let oid := match reply.response.named.oid with
    | some oid => s!", oid={oid}"
    | none => ""
  s!"ExtendedResult({reply.describeResult}{oid}{reply.describeCommon})"

end ExtendedReply

end DirectoryAccess
