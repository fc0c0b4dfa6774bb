import DirectoryAccess.Proofs.Checked.Stream
import DirectoryAccess.Proofs.Checked.Transaction
import DirectoryAccess.Proofs.Decoding

/-!
# Decoders settle whatever they are given

Every decoder answers or fails, whatever octets, elements, calls or readers it is
given. On the way it takes no slice, looks at no place and forms no difference that
is out of bounds; if it fails, it is with a failure of a decoder, whose result code
is 84. A failure of another kind can only be found among the causes.
-/

namespace DirectoryAccess

open Ber (Element Limits Reader Reading)
open Transaction (EndReply EndReport EndRequest StartRequest)

/-- An answer that is reached within bounds and is no other failure than one of a decoder. -/
structure Settles {α : Type} (checked : Checking α) (answer : Except Failure α) : Prop where
  /-- Nothing is out of bounds. -/
  checked_eq : checked = some answer
  /-- A failure is one of a decoder. -/
  failure : ∀ failure, answer = .error failure →
    failure.OfDecoder ∧ failure.resultCode = ⟨84⟩

/-- A reading that is done within bounds and fails with no other failure than one of a decoder. -/
structure SettlesOn {α : Type} (checked : CheckedReading α) (step : Reading α) (r : Reader) :
    Prop where
  /-- Nothing is out of bounds. -/
  checked_eq : r.WellNested → checked r = some (step r)
  /-- The reader is left as well nested as it was. -/
  wellNested : r.WellNested → (step r).2.WellNested
  /-- A failure is one of a decoder. -/
  failure : ∀ failure s, step r = (.error failure, s) →
    failure.OfDecoder ∧ failure.resultCode = ⟨84⟩

/-- What a checked decoder settles, from what its bounds and its failures are. -/
theorem Settles.of_decodes {α : Type} {checked : Checking α} {answer : Except Failure α}
    (hchecked : checked = Checking.ofExcept answer) (h : Decodes answer) :
    Settles checked answer where
  checked_eq := hchecked
  failure failure hfailure := ⟨h failure hfailure, (h failure hfailure).resultCode_eq⟩

/-- What a checked reading settles on a reader, from what its bounds and its failures are. -/
theorem SettlesOn.of_guards {α : Type} {checked : CheckedReading α} {step : Reading α}
    (hguards : Guards checked step) (h : Reading.Decodes step) (r : Reader) :
    SettlesOn checked step r where
  checked_eq := hguards.checked_eq
  wellNested := hguards.wellNested
  failure failure s hstep := by
    have hof := h r failure (by rw [hstep])
    exact ⟨hof, hof.resultCode_eq⟩

/-- What every decoder does with everything that it can be given. -/
structure DecodersSettle : Prop where
  /-- Octets as an operation. -/
  operationOfOctets : ∀ octets,
    Settles (Operation.ofOctetsChecked octets) (Operation.ofOctets octets)
  /-- An element as an operation of the kind that it says. -/
  operation : ∀ e, Settles (Operation.decodeChecked e) (Operation.decode e)
  /-- An element as an operation of a given kind. -/
  operationAs : ∀ kind e, Settles (decodeAsChecked kind e) (decodeAs kind e)
  /-- Octets as a message. -/
  messageOfOctets : ∀ octets, Settles (Message.ofOctetsChecked octets) (Message.ofOctets octets)
  /-- An element as a message. -/
  message : ∀ e, Settles (Message.decodeChecked e) (Message.decode e)
  /-- An element as a filter. -/
  filter : ∀ e, Settles (Filter.decodeChecked e) (Filter.decode e)
  /-- An element as a control. -/
  control : ∀ e, Settles (Control.decodeChecked e) (Control.decode e)
  /-- An element as a list of controls. -/
  controls : ∀ e, Settles (Control.decodeListChecked e) (Control.decodeList e)
  /-- An element as an attribute. -/
  attr : ∀ e, Settles (Attribute.decodeChecked e) (Attribute.decode e)
  /-- An element as a modification. -/
  modification : ∀ e, Settles (Modification.decodeChecked e) (Modification.decode e)
  /-- The first of some elements as an outcome. -/
  outcome : ∀ elements, Settles (Outcome.decodeChecked elements) (Outcome.decode elements)
  /-- A call as a request to start a transaction. -/
  startRequest : ∀ call, Settles (StartRequest.ofCallChecked call) (StartRequest.ofCall call)
  /-- A call as a request to end a transaction. -/
  endRequest : ∀ call, Settles (EndRequest.ofCallChecked call) (EndRequest.ofCall call)
  /-- The value of a request to end a transaction. -/
  endRequestValue : ∀ value,
    Settles (EndRequest.decodeValueChecked value) (EndRequest.decodeValue value)
  /-- A reply as that to a request to end a transaction. -/
  endReply : ∀ reply, Settles (EndReply.ofReplyChecked reply) (EndReply.ofReply reply)
  /-- The value of a reply to such a request, which may have none. -/
  endReplyValue : ∀ value?,
    Settles (EndReport.decodeValueChecked value?) (EndReport.decodeValue value?)
  /-- A reader is well nested whatever has been asked of it. -/
  reader : ∀ octets limits calls, (Reader.run calls (.ofOctets octets limits)).WellNested
  /-- The next operation of a reader, of the kind that it says. -/
  operationRead : ∀ r, SettlesOn Operation.readChecked Operation.read r
  /-- The next operation of a reader, of a given kind. -/
  operationReadAs : ∀ kind r, SettlesOn (readAsChecked kind) (readAs kind) r
  /-- The next message of a reader. -/
  messageRead : ∀ r, SettlesOn Message.readChecked Message.read r

/-- **Decoders settle.** Whatever a decoder is given, it answers or fails as a decoder does, with
the result code 84, and nothing on the way is out of bounds. -/
theorem decoders_settle : DecodersSettle where
  operationOfOctets octets :=
    .of_decodes (Operation.ofOctetsChecked_eq octets) (Operation.ofOctets_decodes octets)
  operation e := .of_decodes (Operation.decodeChecked_eq e) (Operation.decode_decodes e)
  operationAs kind e := .of_decodes (decodeAsChecked_eq kind e) (decodeAs_decodes kind e)
  messageOfOctets octets :=
    .of_decodes (Message.ofOctetsChecked_eq octets) (Message.ofOctets_decodes octets)
  message e := .of_decodes (Message.decodeChecked_eq e) (Message.decode_decodes e)
  filter e := .of_decodes (Filter.decodeChecked_eq e) (Filter.decode_decodes e)
  control e := .of_decodes (Control.decodeChecked_eq e) (Control.decode_decodes e)
  controls e := .of_decodes (Control.decodeListChecked_eq e) (Control.decodeList_decodes e)
  attr e := .of_decodes (Attribute.decodeChecked_eq e) (Attribute.decode_decodes e)
  modification e := .of_decodes (Modification.decodeChecked_eq e) (Modification.decode_decodes e)
  outcome elements :=
    .of_decodes (Outcome.decodeChecked_eq elements) (Outcome.decode_decodes elements)
  startRequest call := .of_decodes rfl (StartRequest.ofCall_decodes call)
  endRequest call :=
    .of_decodes (EndRequest.ofCallChecked_eq call) (EndRequest.ofCall_decodes call)
  endRequestValue value :=
    .of_decodes (EndRequest.decodeValueChecked_eq value) (EndRequest.decodeValue_decodes value)
  endReply reply := .of_decodes (EndReply.ofReplyChecked_eq reply) (EndReply.ofReply_decodes reply)
  endReplyValue value? :=
    .of_decodes (EndReport.decodeValueChecked_eq value?) (EndReport.decodeValue_decodes value?)
  reader octets limits calls :=
    (Reader.run_keeps calls (Reader.wellNested_ofOctets octets limits)).1
  operationRead := .of_guards Operation.guards_read Operation.read_decodes
  operationReadAs kind := .of_guards (guards_readAs kind) (readAs_decodes kind)
  messageRead := .of_guards Message.guards_read Message.read_decodes

/-- A reader in front of an extended request whose name is empty. -/
def namelessRequest : Reader := .ofOctets [0x77, 0x02, 0x80, 0x00] .default

/-- An empty name is refused for a cause with the result code 89, which is not the reply's. -/
theorem decoders_settle_namelessRequest :
    ∃ failure s, Operation.read namelessRequest = (.error failure, s) ∧
      failure.rootCause.resultCode = ⟨89⟩ ∧ failure.resultCode = ⟨84⟩ ∧
      Operation.readChecked namelessRequest = some (.error failure, s) ∧ s.WellNested := by
  have hread : Operation.read namelessRequest =
      (.error (.explained "cannot decode extended request"
        (.explained "cannot decode the request OID" (.invalidData "OID must not be empty"))),
        ⟨[0x77, 0x02, 0x80, 0x00], 4, [4], .default⟩) := rfl
  have hnested : namelessRequest.WellNested :=
    decoders_settle.reader [0x77, 0x02, 0x80, 0x00] .default []
  have hsettles := decoders_settle.operationRead namelessRequest
  have hchecked := hsettles.checked_eq hnested
  have hleft := hsettles.wellNested hnested
  rw [hread] at hchecked hleft
  exact ⟨_, _, hread, rfl, (hsettles.failure _ _ hread).2, hchecked, hleft⟩

end DirectoryAccess
