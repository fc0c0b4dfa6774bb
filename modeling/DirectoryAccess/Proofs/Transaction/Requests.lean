import DirectoryAccess.Proofs.Extended
import DirectoryAccess.Transaction.End

/-!
# Requests for transactions through messages

A request to start or to end a transaction is made into a call, the call into a
message and the message into octets. Each of these is read back by the layer that
made it, so the request comes out as it went in; what is left out, the value of a
start and the flag of a commit, is read as what it stands for
(`EndRequest.decodeValue_encodeValue`). The two kinds of request have different
names, by which the reader of one refuses the other (`ofCall_ofOctets`).
-/

namespace DirectoryAccess.Transaction

open Ber (Element Tag)
open Ber.Element

/-- What a call is refused with that names another operation than the one it is read as. -/
def misnamed (named expected : Oid) : Failure :=
  .malformed s!"extended request OID {named.text} is not {expected.text}"

theorem expectOid_of_eq {oid : Oid} {call : ExtendedCall} (h : call.request.oid = oid) :
    expectOid oid call = .ok () :=
  if_pos (congrArg Oid.text h)

theorem expectOid_of_ne {oid : Oid} {call : ExtendedCall} (h : call.request.oid.text ≠ oid.text) :
    expectOid oid call = .error (misnamed call.request.oid oid) :=
  if_neg h

namespace EndRequest

/-- The element that is the value that names a transaction and its end. -/
def encode (transactionId : Octets) (commit : Bool) : Element :=
  .sequence Tag.sequence (⟨Tag.octetString, transactionId⟩ ::
    (if commit then [] else [.boolean Tag.boolean false]))

/-- The value of a request is the element that names the transaction and its end. -/
theorem encodeValue_eq (transactionId : Octets) (commit : Bool) :
    encodeValue transactionId commit = (encode transactionId commit).encode := rfl

/-- What is written as the value of a request is read as the transaction and its end; a flag that
is left out is read as a commit. -/
theorem decodeValue_encodeValue {transactionId : Octets} {commit : Bool}
    (hs : (encode transactionId commit).value.length < 2 ^ 32) :
    decodeValue (encodeValue transactionId commit) = .ok (transactionId, commit) := by
  have hparts : (encode transactionId commit).asElements =
      .ok (⟨Tag.octetString, transactionId⟩ ::
        (if commit then [] else [.boolean Tag.boolean false])) :=
    asElements_sequence (by cases commit <;> simp) hs
  rw [decodeValue, encodeValue_eq, Element.decode_encode Ber.isMultiOctet_sequence hs, ok_bind,
    hparts]
  cases commit with
  | true => rfl
  | false => rfl

/-- The value of a request is shorter than the message that carries the request. -/
theorem length_encode_lt {request : EndRequest} {id : Int32} {n : Nat}
    (hs : (request.toCall.toMessage id).encode.value.length < n) :
    (encode request.transactionId request.commit).value.length < n := by
  have hlt : (encodeValue request.transactionId request.commit).length < n :=
    ExtendedCall.length_value_lt rfl hs
  rw [encodeValue_eq, length_encode] at hlt
  omega

/-- A call is the request that it was made for. -/
theorem ofCall_toCall {request : EndRequest}
    (hs : (encode request.transactionId request.commit).value.length < 2 ^ 32) :
    ofCall request.toCall = .ok request := by
  have hname : expectOid endOid request.toCall = .ok () := expectOid_of_eq rfl
  have hread := decodeValue_encodeValue hs
  rw [ofCall, hname, ok_bind]
  simp only [toCall, hread, ok_bind, pure_eq_ok]

/-- A call to start a transaction is none to end one. -/
theorem ofCall_start (request : StartRequest) :
    ofCall request.toCall = .error (misnamed startOid endOid) := by
  have hne : startOid.text ≠ endOid.text := by decide
  have hname : expectOid endOid request.toCall = .error (misnamed startOid endOid) :=
    expectOid_of_ne hne
  rw [ofCall, hname, error_bind]

end EndRequest

/-- A call to end a transaction is none to start one. -/
theorem StartRequest.ofCall_end (request : EndRequest) :
    ofCall request.toCall = .error (misnamed endOid startOid) := by
  have hne : endOid.text ≠ startOid.text := by decide
  have hname : expectOid startOid request.toCall = .error (misnamed endOid startOid) :=
    expectOid_of_ne hne
  rw [ofCall, hname, error_bind]

/-- **Requests through all layers.** The octets of the message that carries a request to start or
to end a transaction, with any number that is not negative, are read as the call that was made of
it, and this call as the request itself, with its controls, its transaction and its flag. The reader
of the other kind of request refuses the call. All this as far as the message takes fewer than
`2 ^ 32` octets. -/
theorem ofCall_ofOctets {id : Int32} (hid : 0 ≤ id) :
    (∀ request : StartRequest, (request.toCall.toMessage id).encode.value.length < 2 ^ 32 →
      let read := Message.ofOctets (request.toCall.toMessage id).toOctets >>= ExtendedCall.ofMessage
      (read >>= StartRequest.ofCall) = .ok request ∧
        read = .ok request.toCall ∧
        EndRequest.ofCall request.toCall = .error (misnamed startOid endOid)) ∧
    (∀ request : EndRequest, (request.toCall.toMessage id).encode.value.length < 2 ^ 32 →
      let read := Message.ofOctets (request.toCall.toMessage id).toOctets >>= ExtendedCall.ofMessage
      (read >>= EndRequest.ofCall) = .ok request ∧
        read = .ok request.toCall ∧
        StartRequest.ofCall request.toCall = .error (misnamed endOid startOid)) := by
  constructor
  · intro request hs read
    have hread : read = .ok request.toCall := ExtendedCall.ofMessage_ofOctets hid hs
    refine ⟨?_, hread, EndRequest.ofCall_start request⟩
    rw [hread, ok_bind]
    exact StartRequest.ofCall_toCall request
  · intro request hs read
    have hread : read = .ok request.toCall := ExtendedCall.ofMessage_ofOctets hid hs
    refine ⟨?_, hread, StartRequest.ofCall_end request⟩
    rw [hread, ok_bind]
    exact EndRequest.ofCall_toCall (EndRequest.length_encode_lt hs)

theorem fourNumbers_ne_empty : "1.2.3.4" ≠ "" := by decide

theorem threeNumbers_ne_empty : "1.2.3" ≠ "" := by decide

/-- A request to give a transaction up, with two controls. -/
def abort : EndRequest :=
  ⟨[0x01, 0xFF], false,
    [⟨⟨"1.2.3.4", fourNumbers_ne_empty⟩, true, none⟩,
      ⟨⟨"1.2.3", threeNumbers_ne_empty⟩, false, some []⟩]⟩

/-- Requests to start a transaction and to give it up are read back, and one is not taken for the
other. -/
theorem ofCall_ofOctets_abort :
    (Message.ofOctets ((StartRequest.mk abort.controls).toCall.toMessage 0).toOctets >>=
        ExtendedCall.ofMessage >>= StartRequest.ofCall) = .ok ⟨abort.controls⟩ ∧
      (Message.ofOctets (abort.toCall.toMessage 7).toOctets >>= ExtendedCall.ofMessage >>=
        EndRequest.ofCall) = .ok abort ∧
      StartRequest.ofCall abort.toCall = .error (misnamed endOid startOid) := by
  have hzero : (0 : Int32) ≤ 0 := by decide
  have hseven : (0 : Int32) ≤ 7 := by decide
  obtain ⟨hstart, -⟩ := ofCall_ofOctets hzero
  obtain ⟨-, hend⟩ := ofCall_ofOctets hseven
  obtain ⟨hread, -, hrefused⟩ := hend abort (by decide +kernel)
  exact ⟨(hstart ⟨abort.controls⟩ (by decide +kernel)).1, hread, hrefused⟩

end DirectoryAccess.Transaction
