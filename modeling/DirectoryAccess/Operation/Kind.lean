import DirectoryAccess.Octets

/-!
# Kinds of operations

There are twenty-one operations, ten that clients send and eleven that servers
do. Each has a type octet of its own and a name for messages.
-/

namespace DirectoryAccess

/-- Which operation it is. -/
inductive Kind
  | bindRequest
  | bindResponse
  | unbindRequest
  | searchRequest
  | searchResultEntry
  | searchResultDone
  | searchResultReference
  | modifyRequest
  | modifyResponse
  | addRequest
  | addResponse
  | deleteRequest
  | deleteResponse
  | modifyDnRequest
  | modifyDnResponse
  | compareRequest
  | compareResponse
  | abandonRequest
  | extendedRequest
  | extendedResponse
  | intermediateResponse
  deriving DecidableEq, Repr, Inhabited

namespace Kind

/-- All kinds of operations. -/
def every : List Kind :=
  [bindRequest, bindResponse, unbindRequest, searchRequest, searchResultEntry, searchResultDone,
    searchResultReference, modifyRequest, modifyResponse, addRequest, addResponse, deleteRequest,
    deleteResponse, modifyDnRequest, modifyDnResponse, compareRequest, compareResponse,
    abandonRequest, extendedRequest, extendedResponse, intermediateResponse]

/-- The type octet of the operation's element. -/
def tag : Kind → UInt8
  | bindRequest => 0x60
  | bindResponse => 0x61
  | unbindRequest => 0x42
  | searchRequest => 0x63
  | searchResultEntry => 0x64
  | searchResultDone => 0x65
  | searchResultReference => 0x73
  | modifyRequest => 0x66
  | modifyResponse => 0x67
  | addRequest => 0x68
  | addResponse => 0x69
  | deleteRequest => 0x4A
  | deleteResponse => 0x6B
  | modifyDnRequest => 0x6C
  | modifyDnResponse => 0x6D
  | compareRequest => 0x6E
  | compareResponse => 0x6F
  | abandonRequest => 0x50
  | extendedRequest => 0x77
  | extendedResponse => 0x78
  | intermediateResponse => 0x79

/-- The name of the operation. -/
def name : Kind → String
  | bindRequest => "bind request"
  | bindResponse => "bind response"
  | unbindRequest => "unbind request"
  | searchRequest => "search request"
  | searchResultEntry => "search result entry"
  | searchResultDone => "search result done"
  | searchResultReference => "search result reference"
  | modifyRequest => "modify request"
  | modifyResponse => "modify response"
  | addRequest => "add request"
  | addResponse => "add response"
  | deleteRequest => "delete request"
  | deleteResponse => "delete response"
  | modifyDnRequest => "modify DN request"
  | modifyDnResponse => "modify DN response"
  | compareRequest => "compare request"
  | compareResponse => "compare response"
  | abandonRequest => "abandon request"
  | extendedRequest => "extended request"
  | extendedResponse => "extended response"
  | intermediateResponse => "intermediate response"

/-- Whether clients send the operation. -/
def isRequest : Kind → Bool
  | bindRequest | unbindRequest | searchRequest | modifyRequest | addRequest | deleteRequest
  | modifyDnRequest | compareRequest | abandonRequest | extendedRequest => true
  | _ => false

/-- The kind of operation with the given type octet. -/
def ofTag? (tag : UInt8) : Option Kind := every.find? (·.tag == tag)

/-- The type octet tells the kinds apart. -/
theorem ofTag?_tag (kind : Kind) : ofTag? kind.tag = some kind := by
  cases kind <;> rfl

/-- Each kind that a type octet stands for has that type octet. -/
theorem tag_of_ofTag? {tag : UInt8} {kind : Kind} (h : ofTag? tag = some kind) :
    kind.tag = tag := by
  have hb := List.find?_some h
  exact eq_of_beq hb

end Kind

end DirectoryAccess
