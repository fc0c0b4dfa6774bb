import DirectoryAccess.Operation.Entries
import DirectoryAccess.Operation.Extension
import DirectoryAccess.Operation.Search
import DirectoryAccess.Operation.Session

/-!
# Operations

An operation is its kind and what operations of that kind carry (`Body`). It is
sent as one element, whose type octet says the kind. An element can be read as an
operation of a given kind (`decodeAs`) or as one of the kind that it says it is
(`Operation.decode`); a failure always says which operation could not be decoded.
-/

namespace DirectoryAccess

open Ber (Element Tag showTag)

/-- What operations of a kind carry. Six kinds of responses are an outcome and nothing else. -/
abbrev Body : Kind → Type
  | .bindRequest => BindRequest
  | .bindResponse => BindResponse
  | .unbindRequest => Unit
  | .searchRequest => SearchRequest
  | .searchResultEntry => Entry
  | .searchResultDone => Outcome
  | .searchResultReference => List String
  | .modifyRequest => ModifyRequest
  | .modifyResponse => Outcome
  | .addRequest => Entry
  | .addResponse => Outcome
  | .deleteRequest => String
  | .deleteResponse => Outcome
  | .modifyDnRequest => ModifyDnRequest
  | .modifyDnResponse => Outcome
  | .compareRequest => CompareRequest
  | .compareResponse => Outcome
  | .abandonRequest => Int32
  | .extendedRequest => ExtendedRequest
  | .extendedResponse => ExtendedResponse
  | .intermediateResponse => NamedValue

instance Body.instDecidableEq (kind : Kind) : DecidableEq (Body kind) := by
  cases kind <;> exact inferInstance

/-- The element of a response that is only an outcome. -/
def encodeOutcome (kind : Kind) (outcome : Outcome) : Element :=
  .sequence kind.tag outcome.encode

/-- The outcome that is all that a response holds. -/
def decodeOutcome (element : Element) : Except Failure Outcome := do
  let parts ← explain "response is not a valid sequence" element.asElements
  match ← Outcome.decode parts with
  | (outcome, []) => return outcome
  | (_, part :: _) =>
    throw (.malformed s!"unexpected element type {showTag part.tag} after the result components")

namespace Body

/-- The element of an operation. -/
def encode : (kind : Kind) → Body kind → Element
  | .bindRequest, request => BindRequest.encode request
  | .bindResponse, response => BindResponse.encode response
  | .unbindRequest, _ => .null Kind.unbindRequest.tag
  | .searchRequest, request => SearchRequest.encode request
  | .searchResultEntry, entry => Entry.encode .searchResultEntry entry
  | .searchResultDone, outcome => encodeOutcome .searchResultDone outcome
  | .searchResultReference, urls => .texts Kind.searchResultReference.tag urls
  | .modifyRequest, request => ModifyRequest.encode request
  | .modifyResponse, outcome => encodeOutcome .modifyResponse outcome
  | .addRequest, entry => Entry.encode .addRequest entry
  | .addResponse, outcome => encodeOutcome .addResponse outcome
  | .deleteRequest, dn => .text Kind.deleteRequest.tag dn
  | .deleteResponse, outcome => encodeOutcome .deleteResponse outcome
  | .modifyDnRequest, request => ModifyDnRequest.encode request
  | .modifyDnResponse, outcome => encodeOutcome .modifyDnResponse outcome
  | .compareRequest, request => CompareRequest.encode request
  | .compareResponse, outcome => encodeOutcome .compareResponse outcome
  | .abandonRequest, id => .integer Kind.abandonRequest.tag id.toInt
  | .extendedRequest, request => ExtendedRequest.encode request
  | .extendedResponse, response => ExtendedResponse.encode response
  | .intermediateResponse, named => IntermediateResponse.encode named

/-- What an element of the right type carries, whatever its type octet says. -/
def decode : (kind : Kind) → Element → Except Failure (Body kind)
  | .bindRequest, element => BindRequest.decode element
  | .bindResponse, element => BindResponse.decode element
  | .unbindRequest, element => element.asNull
  | .searchRequest, element => SearchRequest.decode element
  | .searchResultEntry, element => Entry.decode .searchResultEntry element
  | .searchResultDone, element => decodeOutcome element
  | .searchResultReference, element => explain "cannot decode the referral URLs" element.asTexts
  | .modifyRequest, element => ModifyRequest.decode element
  | .modifyResponse, element => decodeOutcome element
  | .addRequest, element => Entry.decode .addRequest element
  | .addResponse, element => decodeOutcome element
  | .deleteRequest, element => element.asText
  | .deleteResponse, element => decodeOutcome element
  | .modifyDnRequest, element => ModifyDnRequest.decode element
  | .modifyDnResponse, element => decodeOutcome element
  | .compareRequest, element => CompareRequest.decode element
  | .compareResponse, element => decodeOutcome element
  | .abandonRequest, element => decodeAbandoned element
  | .extendedRequest, element => ExtendedRequest.decode element
  | .extendedResponse, element => ExtendedResponse.decode element
  | .intermediateResponse, element => IntermediateResponse.decode element

end Body

/-- What an element carries as an operation of the given kind, whose type octet it must have. -/
def decodeAs (kind : Kind) (element : Element) : Except Failure (Body kind) :=
  if element.tag = kind.tag then explain s!"cannot decode {kind.name}" (Body.decode kind element)
  else
    let types := s!"expected BER type {showTag kind.tag}, got {showTag element.tag}"
    .error (.malformed s!"cannot decode {kind.name}: {types}")

/-- A request or a response. -/
structure Operation where
  /-- Which operation it is. -/
  kind : Kind
  /-- What it carries. -/
  body : Body kind
  deriving DecidableEq

instance : Inhabited Operation := ⟨⟨.unbindRequest, ()⟩⟩

namespace Operation

/-- A type octet that no operation has. -/
def unknownType (tag : UInt8) : Failure :=
  .malformed s!"unknown protocol operation type {showTag tag}"

/-- The element of an operation. -/
def encode (op : Operation) : Element := Body.encode op.kind op.body

/-- The operation that an element is. -/
def decode (element : Element) : Except Failure Operation :=
  match Kind.ofTag? element.tag with
  | none => .error (unknownType element.tag)
  | some kind => (decodeAs kind element).map (Operation.mk kind)

/-- The octets of an operation. -/
def toOctets (op : Operation) : Octets := op.encode.encode

/-- The operation that some octets are, with nothing behind it. -/
def ofOctets (octets : Octets) : Except Failure Operation := do
  decode (← explain "cannot read the protocol operation element" (Element.decode octets))

/-- The outcome of a response that is nothing else. -/
def outcome? (op : Operation) : Option Outcome :=
  match op with
  | ⟨.searchResultDone, outcome⟩ | ⟨.modifyResponse, outcome⟩ | ⟨.addResponse, outcome⟩
  | ⟨.deleteResponse, outcome⟩ | ⟨.modifyDnResponse, outcome⟩ | ⟨.compareResponse, outcome⟩ =>
    some outcome
  | _ => none

/-- An outcome in words, with the name of the response that it is. -/
def describeOutcome (name : String) (outcome : Outcome) : String :=
  s!"{name}({outcome.describe})"

/-- An operation in words, where it has any: an extended request, or an outcome alone. -/
def describe? (op : Operation) : Option String :=
  match op with
  | ⟨.extendedRequest, request⟩ => some (ExtendedRequest.describe request)
  | ⟨.searchResultDone, outcome⟩ => some (describeOutcome "SearchResultDoneProtocolOp" outcome)
  | ⟨.modifyResponse, outcome⟩ => some (describeOutcome "ModifyResponseProtocolOp" outcome)
  | ⟨.addResponse, outcome⟩ => some (describeOutcome "AddResponseProtocolOp" outcome)
  | ⟨.deleteResponse, outcome⟩ => some (describeOutcome "DeleteResponseProtocolOp" outcome)
  | ⟨.modifyDnResponse, outcome⟩ => some (describeOutcome "ModifyDNResponseProtocolOp" outcome)
  | ⟨.compareResponse, outcome⟩ => some (describeOutcome "CompareResponseProtocolOp" outcome)
  | _ => none

end Operation

end DirectoryAccess
