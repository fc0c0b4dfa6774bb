import DirectoryAccess.Extended

/-!
# Starting a transaction

A batched transaction is started by an extended request without a value. The value
of the reply is the identifier of the transaction, under which further operations
become part of it.
-/

namespace DirectoryAccess.Transaction

/-- Checks that a call is for the given extended operation. -/
def expectOid (oid : Oid) (call : ExtendedCall) : Except Failure Unit :=
  if call.request.oid.text = oid.text then .ok ()
  else
    .error (.malformed s!"extended request OID {call.request.oid.text} is not {oid.text}")

/-- The name of the operation that starts a transaction. -/
def startOid : Oid := ⟨"1.3.6.1.4.1.30221.2.5.1", by decide⟩

/-- A request to start a transaction. -/
structure StartRequest where
  /-- The controls of the request. -/
  controls : List Control
  deriving DecidableEq, Repr

namespace StartRequest

/-- The call that is made to start a transaction. -/
def toCall (request : StartRequest) : ExtendedCall := ⟨⟨startOid, none⟩, request.controls⟩

/-- The request that a call is, which may not have a value. -/
def ofCall (call : ExtendedCall) : Except Failure StartRequest := do
  expectOid startOid call
  if call.request.value.isSome then
    throw (.malformed "start batched transaction request must not have a value")
  return ⟨call.controls⟩

/-- A call is the request that it was made for. -/
theorem ofCall_toCall (request : StartRequest) : ofCall request.toCall = .ok request := rfl

end StartRequest

/-- The reply to a request to start a transaction. -/
structure StartReply where
  /-- The reply, as that to any extended request. -/
  reply : ExtendedReply
  deriving DecidableEq, Repr

namespace StartReply

/-- A reply that gives the identifier of the transaction, if there is one. -/
def ofOutcome (id : Int32) (outcome : Outcome) (transactionId : Option Octets)
    (controls : List Control) : StartReply :=
  ⟨⟨id, ⟨outcome, ⟨none, transactionId⟩⟩, controls⟩⟩

/-- The identifier of the transaction. -/
def transactionId (start : StartReply) : Option Octets := start.reply.response.named.value

/-- A reply in words, the identifier read as a text as far as it is one. -/
def describe (start : StartReply) : String :=
  let transactionId := match start.transactionId with
    | some id => s!", transactionID='{Utf8.decodeLossy id}'"
    | none => ""
  let reply := start.reply
  s!"StartBatchedTransactionExtendedResult({reply.describeResult}{transactionId}" ++
    s!"{reply.describeCommon})"

end StartReply

end DirectoryAccess.Transaction
