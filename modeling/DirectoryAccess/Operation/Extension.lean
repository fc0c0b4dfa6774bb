import DirectoryAccess.Oid
import DirectoryAccess.Operation.Kind
import DirectoryAccess.Outcome

/-!
# Extended operations

An operation that the protocol does not know of is sent under an object
identifier, with a value that only its two ends understand. Its responses may be
named and may carry a value, in this order.
-/

namespace DirectoryAccess

open Ber (Element Tag showTag)

/-- A request for an operation of the given name. -/
structure ExtendedRequest where
  /-- The name of the operation. -/
  oid : Oid
  /-- What the operation is given. -/
  value : Option Octets
  deriving DecidableEq, Repr

namespace ExtendedRequest

/-- The type of the name. -/
def oidTag : UInt8 := 0x80

/-- The type of the value. -/
def valueTag : UInt8 := 0x81

/-- A request for the operation with the given name, which may not be empty. -/
def ofName (name : String) (value : Option Octets) : Except Failure ExtendedRequest := do
  return ⟨← Oid.ofString name, value⟩

/-- The element of a request. -/
def encode (request : ExtendedRequest) : Element :=
  .sequence Kind.extendedRequest.tag
    (.text oidTag request.oid.text :: request.value.toList.map (Element.mk valueTag))

/-- The name of the operation, from its element. -/
def decodeOid (element : Element) : Except Failure Oid :=
  explain "cannot decode the request OID" (element.asText >>= Oid.ofString)

/-- The request that an element is. -/
def decode (element : Element) : Except Failure ExtendedRequest := do
  match ← element.asElements with
  | [oid] => return ⟨← decodeOid oid, none⟩
  | [oid, value] => return ⟨← decodeOid oid, some value.value⟩
  | parts => throw (.elementCount "extended request" "1 or 2" parts.length)

/-- A request in words. -/
def describe (request : ExtendedRequest) : String :=
  let value := match request.value with
    | some value => s!", valueLength={value.length}"
    | none => ""
  s!"ExtendedRequestProtocolOp(oid='{request.oid.text}'{value})"

end ExtendedRequest

/-- What a response may carry beside its outcome. -/
structure NamedValue where
  /-- The name of the response. -/
  oid : Option String
  /-- The value of the response. -/
  value : Option Octets
  deriving DecidableEq, Repr

namespace NamedValue

/-- The elements of a name and a value, with the types that they have in the response. -/
def encode (oidTag valueTag : UInt8) (named : NamedValue) : List Element :=
  named.oid.toList.map (Element.text oidTag) ++ named.value.toList.map (Element.mk valueTag)

/-- Takes elements into a response of the given kind: at most one name and then at most one
value. -/
def withParts (kind : Kind) (oidTag valueTag : UInt8) (named : NamedValue) :
    List Element → Except Failure NamedValue
  | [] => .ok named
  | part :: parts =>
    if part.tag = oidTag ∧ named.oid.isNone ∧ named.value.isNone then do
      let oid ← explain "cannot decode the response OID" part.asText
      withParts kind oidTag valueTag { named with oid := some oid } parts
    else if part.tag = valueTag ∧ named.value.isNone then
      withParts kind oidTag valueTag { named with value := some part.value } parts
    else .error (.malformed s!"unexpected {kind.name} element type {showTag part.tag}")

end NamedValue

/-- The response to an extended request. -/
structure ExtendedResponse where
  /-- How the request ended. -/
  outcome : Outcome
  /-- The name and the value of the response. -/
  named : NamedValue
  deriving DecidableEq, Repr

namespace ExtendedResponse

/-- The type of the name. -/
def oidTag : UInt8 := 0x8A

/-- The type of the value. -/
def valueTag : UInt8 := 0x8B

/-- The element of a response. -/
def encode (response : ExtendedResponse) : Element :=
  .sequence Kind.extendedResponse.tag
    (response.outcome.encode ++ response.named.encode oidTag valueTag)

/-- The response that an element is. -/
def decode (element : Element) : Except Failure ExtendedResponse := do
  let (outcome, parts) ← Outcome.decode (← element.asElements)
  let named ← NamedValue.withParts .extendedResponse oidTag valueTag ⟨none, none⟩ parts
  return ⟨outcome, named⟩

end ExtendedResponse

namespace IntermediateResponse

/-- The type of the name. -/
def oidTag : UInt8 := 0x80

/-- The type of the value. -/
def valueTag : UInt8 := 0x81

/-- The element of a response that is not the last one. -/
def encode (named : NamedValue) : Element :=
  .sequence Kind.intermediateResponse.tag (named.encode oidTag valueTag)

/-- The response that an element is. -/
def decode (element : Element) : Except Failure NamedValue := do
  NamedValue.withParts .intermediateResponse oidTag valueTag ⟨none, none⟩ (← element.asElements)

end IntermediateResponse

end DirectoryAccess
