import DirectoryAccess.Transaction.ControlTable
import DirectoryAccess.Transaction.Start

/-!
# Ending a transaction

A batched transaction is ended by an extended request whose value names it and
says whether it is to be committed. The value of the reply reports which operation
failed, if one did, and the controls of the responses to the operations. A report
that is made here names only a positive number as failed and has no empty lists
(`EndReply.ofOutcome`); one that is read keeps the number that it was sent with.
-/

namespace DirectoryAccess.Transaction

open Ber (Element Tag showTag)

/-- The name of the operation that ends a transaction. -/
def endOid : Oid := ⟨"1.3.6.1.4.1.30221.2.5.2", by decide⟩

/-- A request to end a transaction. -/
structure EndRequest where
  /-- The identifier of the transaction. -/
  transactionId : Octets
  /-- Whether the operations are to take effect. -/
  commit : Bool
  /-- The controls of the request. -/
  controls : List Control
  deriving DecidableEq, Repr

namespace EndRequest

/-- The value that names a transaction and its end; a commit is left out. -/
def encodeValue (transactionId : Octets) (commit : Bool) : Octets :=
  (Element.sequence Tag.sequence (⟨Tag.octetString, transactionId⟩ ::
    (if commit then [] else [.boolean Tag.boolean false]))).encode

/-- The transaction and its end that a value names. -/
def decodeValue (value : Octets) : Except Failure (Octets × Bool) := do
  match ← explain "end batched transaction request value is not a sequence"
    (Element.decode value >>= Element.asElements) with
  | [transactionId] => return (transactionId.value, true)
  | [transactionId, commit] =>
    if commit.tag ≠ Tag.boolean then
      throw (.malformed
        s!"unexpected element type {showTag commit.tag} in end batched transaction request value")
    return (transactionId.value, ← explain "cannot decode the commit flag" commit.asBool)
  | parts =>
    throw (.elementCount "end batched transaction request value" "1 or 2" parts.length)

/-- The call that is made to end a transaction. -/
def toCall (request : EndRequest) : ExtendedCall :=
  ⟨⟨endOid, some (encodeValue request.transactionId request.commit)⟩, request.controls⟩

/-- The request that a call is, which must have a value. -/
def ofCall (call : ExtendedCall) : Except Failure EndRequest := do
  expectOid endOid call
  match call.request.value with
  | none => throw (.malformed "end batched transaction request has no value")
  | some value =>
    let (transactionId, commit) ← decodeValue value
    return ⟨transactionId, commit, call.controls⟩

end EndRequest

/-- What the value of a reply reports. -/
structure EndReport where
  /-- The number of the operation that failed. -/
  failed : Int32
  /-- The controls of the responses to the operations. -/
  table : ControlTable
  deriving DecidableEq, Repr

namespace EndReport

/-- The number that stands for no operation. -/
def noOperation : Int32 := -1

/-- The report that nothing failed and that there were no controls. -/
def empty : EndReport := ⟨noOperation, .empty⟩

/-- The value that reports a failed operation and controls. There is none where neither is given,
and an empty table is left out of it. -/
def encodeValue (failed? : Option Int32) (table? : Option ControlTable) : Option Octets :=
  match failed?, table? with
  | none, none => none
  | _, _ =>
    let failed := failed?.toList.map fun id => Element.integer Tag.integer id.toInt
    let table := (table?.toList.filter (!·.isEmpty)).map ControlTable.encode
    some (Element.sequence Tag.sequence (failed ++ table)).encode

/-- Takes a part of a value into a report. -/
def withPart (report : EndReport) (part : Element) : Except Failure EndReport := do
  if part.tag = Tag.integer then
    let failed ← explain "cannot decode the failed operation message ID" part.asInt32
    return { report with failed }
  else if part.tag = Tag.sequence then
    return { report with table := ← report.table.insertAll part }
  else
    throw (.malformed
      s!"unexpected element type {showTag part.tag} in end batched transaction result value")

/-- The report that a value is, or the empty one where there is no value. -/
def decodeValue : Option Octets → Except Failure EndReport
  | none => .ok empty
  | some value => do
    let parts ← explain "end batched transaction result value is not a sequence"
      (Element.decode value >>= Element.asElements)
    if 2 < parts.length then
      throw (.malformed ("end batched transaction result value has " ++
        s!"{parts.length} elements, at most 2 are allowed"))
    parts.foldlM withPart empty

end EndReport

/-- The reply to a request to end a transaction. -/
structure EndReply where
  /-- The reply, as that to any extended request. -/
  reply : ExtendedReply
  /-- What its value reports. -/
  report : EndReport
  deriving DecidableEq, Repr

namespace EndReply

/-- A reply that reports a failed operation and controls. A number that is not positive reports
none, and numbers without controls are left out. -/
def ofOutcome (id : Int32) (outcome : Outcome) (failed? : Option Int32)
    (table? : Option ControlTable) (controls : List Control) : EndReply :=
  let failed? := failed?.filter (0 < ·)
  let table? := table?.map (·.withoutEmpty)
  ⟨⟨id, ⟨outcome, ⟨none, EndReport.encodeValue failed? table?⟩⟩, controls⟩,
    ⟨failed?.getD EndReport.noOperation, table?.getD .empty⟩⟩

/-- The reply to a request to end a transaction that a reply is, by its value. -/
def ofReply (reply : ExtendedReply) : Except Failure EndReply := do
  return ⟨reply, ← EndReport.decodeValue reply.response.named.value⟩

/-- A reply in words. -/
def describe (ending : EndReply) : String :=
  let report := ending.report
  let failed := if 0 < report.failed then s!", failedOpMessageID={report.failed}" else ""
  let table := if report.table.isEmpty then ""
    else ", opResponseControls=\x7b" ++ report.table.describe ++ "\x7d"
  let reply := ending.reply
  s!"EndBatchedTransactionExtendedResult({reply.describeResult}{failed}{table}" ++
    s!"{reply.describeCommon})"

end EndReply

end DirectoryAccess.Transaction
