import DirectoryAccess.Extended
import DirectoryAccess.Proofs.Message.Codec

/-!
# Extended operations through messages

The message that carries an extended call or reply is read back as one that carries the
same, controls included (`ExtendedCall.ofMessage_ofOctets`, `ExtendedReply.ofMessage_ofOctets`).
A bound on the message is a bound on the value inside it.
-/

namespace DirectoryAccess

open Ber (Element)
open Ber.Element

namespace ExtendedCall

variable {call : ExtendedCall} {id : Int32}

/-- The value of a call is shorter than the message that carries the call. -/
theorem length_value_lt {value : Octets} {n : Nat} (h : call.request.value = some value)
    (hs : (call.toMessage id).encode.value.length < n) : value.length < n := by
  have hop : (call.toMessage id).op.encode.value.length < n :=
    Element.length_value_lt_of_mem (by simp) hs
  have hmem : (⟨ExtendedRequest.valueTag, value⟩ : Element) ∈
      .text ExtendedRequest.oidTag call.request.oid.text ::
        call.request.value.toList.map (Element.mk ExtendedRequest.valueTag) := by
    simp [h]
  exact Element.length_value_lt_of_mem hmem hop

/-- A call is read back from the message that carries it, if the number of the message is not
negative. -/
theorem ofMessage_ofOctets (hid : 0 ≤ id) (hs : (call.toMessage id).encode.value.length < 2 ^ 32) :
    (Message.ofOctets (call.toMessage id).toOctets >>= ofMessage) = .ok call := by
  have hread : Message.ofOctets (call.toMessage id).toOctets = .ok (call.toMessage id) :=
    Message.ofOctets_toOctets_of_readsBack hs hid trivial
  rw [hread, ok_bind, ofMessage_toMessage]

end ExtendedCall

namespace ExtendedReply

/-- The value of a reply is shorter than the message that carries the reply. -/
theorem length_value_lt (reply : ExtendedReply) {value : Octets} {n : Nat}
    (h : reply.response.named.value = some value)
    (hs : reply.toMessage.encode.value.length < n) : value.length < n := by
  have hop : reply.toMessage.op.encode.value.length < n := length_value_lt_of_mem (by simp) hs
  have hmem : (⟨ExtendedResponse.valueTag, value⟩ : Element) ∈ reply.response.outcome.encode ++
      reply.response.named.encode ExtendedResponse.oidTag ExtendedResponse.valueTag := by
    simp [NamedValue.encode, h]
  exact length_value_lt_of_mem hmem hop

/-- A reply is read back from the message that carries it, if its number is not negative. -/
theorem ofMessage_ofOctets {reply : ExtendedReply} (hid : 0 ≤ reply.id)
    (hs : reply.toMessage.encode.value.length < 2 ^ 32) :
    (Message.ofOctets reply.toMessage.toOctets >>= ofMessage) = .ok reply := by
  have hread : Message.ofOctets reply.toMessage.toOctets = .ok reply.toMessage :=
    Message.ofOctets_toOctets_of_readsBack hs hid trivial
  rw [hread, ok_bind, ofMessage_toMessage]

end ExtendedReply

end DirectoryAccess
