import DirectoryAccess.Proofs.Checked.Message
import DirectoryAccess.Transaction.End

/-!
# Transactions with every bound checked

The value of an extended request or response is read as an element of its own. What
the reply to the end of a transaction reports is taken in part by part, and so are
the entries of its control table, each of which has a number and controls at two
places. Here each place is checked.
-/

namespace DirectoryAccess.Transaction

open Ber (Element Tag showTag)

namespace ControlTable

/-- The number and the controls that an element holds. -/
def decodeEntryChecked (element : Element) : Checking (Int32 × List Control) := do
  let parts ← Checking.explain "operation response controls entry is not a sequence"
    element.asElementsChecked
  if parts.length ≠ 2 then
    Checking.fail (.elementCount "operation response controls entry" "2" parts.length)
  else
    let id ← Checking.explain "cannot decode the message ID of a response controls entry"
      (Checking.part parts 0 >>= Element.asInt32Checked)
    let controls ← Checking.explain s!"cannot decode the response controls for message {id}"
      (Checking.part parts 1 >>= Control.decodeListChecked)
    return (id, controls)

/-- An entry of a table is read off an element without a look beyond its two parts. -/
theorem decodeEntryChecked_eq (e : Element) :
    decodeEntryChecked e = Checking.ofExcept (decodeEntry e) := by
  refine Checking.bind_eq (Checking.explain_eq _ e.asElementsChecked_eq) fun parts _ => ?_
  rcases parts with _ | ⟨id, _ | ⟨controls, _ | ⟨part, parts⟩⟩⟩
  · rfl
  · rfl
  · refine Checking.bind_eq (Checking.explain_eq _ id.asInt32Checked_eq) fun id _ => ?_
    exact Checking.bind_eq (Checking.explain_eq _ (Control.decodeListChecked_eq controls))
      fun controls _ => rfl
  · rfl

/-- Stores what an element holds, unless it holds no controls. -/
def insertDecodedChecked (table : ControlTable) (element : Element) : Checking ControlTable := do
  let (id, controls) ← decodeEntryChecked element
  return if controls.isEmpty then table else table.insert id controls

/-- An entry is put into a table without a look beyond the parts of its element. -/
theorem insertDecodedChecked_eq (table : ControlTable) (e : Element) :
    table.insertDecodedChecked e = Checking.ofExcept (table.insertDecoded e) :=
  Checking.bind_eq (decodeEntryChecked_eq e) fun _ _ => rfl

/-- Stores what the entries of an element hold, the later ones in place of the earlier. -/
def insertAllChecked (table : ControlTable) (element : Element) : Checking ControlTable := do
  let entries ← Checking.explain "operation response controls element is not a sequence"
    element.asElementsChecked
  entries.foldlM insertDecodedChecked table

/-- All entries are put into a table without a look beyond the parts of any of them. -/
theorem insertAllChecked_eq (table : ControlTable) (e : Element) :
    table.insertAllChecked e = Checking.ofExcept (table.insertAll e) :=
  Checking.bind_eq (Checking.explain_eq _ e.asElementsChecked_eq) fun entries _ =>
    Checking.foldlM_eq insertDecodedChecked_eq entries table

end ControlTable

/-- The request that a call is, which may not have a value; there are no bounds in it. -/
def StartRequest.ofCallChecked (call : ExtendedCall) : Checking StartRequest :=
  Checking.ofExcept (ofCall call)

namespace EndRequest

/-- The transaction and its end that a value names. -/
def decodeValueChecked (value : Octets) : Checking (Octets × Bool) := do
  let parts ← Checking.explain "end batched transaction request value is not a sequence"
    (Element.decodeChecked value >>= Element.asElementsChecked)
  match parts with
  | [transactionId] => return (transactionId.value, true)
  | [transactionId, commit] =>
    if commit.tag ≠ Tag.boolean then
      Checking.fail (.malformed
        s!"unexpected element type {showTag commit.tag} in end batched transaction request value")
    else
      let commit ← Checking.ofExcept (explain "cannot decode the commit flag" commit.asBool)
      return (transactionId.value, commit)
  | parts =>
    Checking.fail (.elementCount "end batched transaction request value" "1 or 2" parts.length)

/-- A request to end a transaction is read off its value without a look beyond its two parts. -/
theorem decodeValueChecked_eq (value : Octets) :
    decodeValueChecked value = Checking.ofExcept (decodeValue value) := by
  refine Checking.bind_eq (Checking.explain_eq _ ?_) fun parts _ => ?_
  · exact Checking.bind_eq (Element.decodeChecked_eq value) fun e _ => e.asElementsChecked_eq
  rcases parts with _ | ⟨transactionId, _ | ⟨commit, _ | ⟨part, parts⟩⟩⟩
  · rfl
  · rfl
  · by_cases htag : commit.tag = Tag.boolean
    · simp only [htag, ne_eq, not_true_eq_false, if_false]
      exact Checking.bind_eq rfl fun commit _ => rfl
    · simp only [htag, ne_eq, not_false_eq_true, if_true]
      rfl
  · rfl

/-- The request that a call is, which must have a value. -/
def ofCallChecked (call : ExtendedCall) : Checking EndRequest := do
  Checking.ofExcept (expectOid endOid call)
  match call.request.value with
  | none => Checking.fail (.malformed "end batched transaction request has no value")
  | some value =>
    let (transactionId, commit) ← decodeValueChecked value
    return ⟨transactionId, commit, call.controls⟩

/-- A request to end a transaction is read off a call without a look beyond its value. -/
theorem ofCallChecked_eq (call : ExtendedCall) :
    ofCallChecked call = Checking.ofExcept (ofCall call) := by
  refine Checking.bind_eq rfl fun _ _ => ?_
  cases call.request.value with
  | none => rfl
  | some value => exact Checking.bind_eq (decodeValueChecked_eq value) fun named _ => rfl

end EndRequest

namespace EndReport

/-- Takes a part of a value into a report. -/
def withPartChecked (report : EndReport) (part : Element) : Checking EndReport :=
  if part.tag = Tag.integer then do
    let failed ← Checking.explain "cannot decode the failed operation message ID"
      part.asInt32Checked
    return { report with failed }
  else if part.tag = Tag.sequence then do
    return { report with table := ← report.table.insertAllChecked part }
  else
    Checking.fail (.malformed
      s!"unexpected element type {showTag part.tag} in end batched transaction result value")

/-- A part of a report is taken without a look beyond its value. -/
theorem withPartChecked_eq (report : EndReport) (part : Element) :
    report.withPartChecked part = Checking.ofExcept (report.withPart part) := by
  rw [withPartChecked, withPart]
  split
  · exact Checking.bind_eq (Checking.explain_eq _ part.asInt32Checked_eq) fun failed _ => rfl
  split
  · exact Checking.bind_eq (report.table.insertAllChecked_eq part) fun table _ => rfl
  · rfl

/-- The report that a value is, or the empty one where there is no value. -/
def decodeValueChecked : Option Octets → Checking EndReport
  | none => Checking.ofExcept (.ok empty)
  | some value => do
    let parts ← Checking.explain "end batched transaction result value is not a sequence"
      (Element.decodeChecked value >>= Element.asElementsChecked)
    if 2 < parts.length then
      Checking.fail (.malformed ("end batched transaction result value has " ++
        s!"{parts.length} elements, at most 2 are allowed"))
    else parts.foldlM withPartChecked empty

/-- A report is read off a value without a look beyond its parts. -/
theorem decodeValueChecked_eq (value? : Option Octets) :
    decodeValueChecked value? = Checking.ofExcept (decodeValue value?) := by
  cases value? with
  | none => rfl
  | some value =>
      refine Checking.bind_eq (Checking.explain_eq _ ?_) fun parts _ => ?_
      · exact Checking.bind_eq (Element.decodeChecked_eq value) fun e _ => e.asElementsChecked_eq
      by_cases hcount : 2 < parts.length
      · simp only [hcount, if_true]
        rfl
      · simp only [hcount, if_false]
        exact Checking.foldlM_eq withPartChecked_eq parts empty

end EndReport

/-- The reply to a request to end a transaction that a reply is, by its value. -/
def EndReply.ofReplyChecked (reply : ExtendedReply) : Checking EndReply := do
  let report ← EndReport.decodeValueChecked reply.response.named.value
  return ⟨reply, report⟩

/-- A reply at the end of a transaction is read without a look beyond its value. -/
theorem EndReply.ofReplyChecked_eq (reply : ExtendedReply) :
    ofReplyChecked reply = Checking.ofExcept (ofReply reply) :=
  Checking.bind_eq (EndReport.decodeValueChecked_eq _) fun _ _ => rfl

end DirectoryAccess.Transaction
