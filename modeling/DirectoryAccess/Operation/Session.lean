import DirectoryAccess.Operation.Kind
import DirectoryAccess.Outcome

/-!
# Binding and abandoning

A client binds with a name and credentials, a password or those of a mechanism of
its own, and may be challenged by the server. It can ask for an operation to be
abandoned by its number. These operations and how they are sent.
-/

namespace DirectoryAccess

open Ber (Element Tag showTag)

/-- How a client proves who it is. -/
inductive Credentials
  /-- A password. -/
  | simple (password : Octets)
  /-- A mechanism, with what it needs first. -/
  | sasl (mechanism : String) (initial : Option Octets)
  deriving DecidableEq, Repr

namespace Credentials

/-- The type of a password. -/
def simpleTag : UInt8 := 0x80

/-- The type of the credentials of a mechanism. -/
def saslTag : UInt8 := 0xA3

/-- Whether the credentials are those of a mechanism. -/
def isSasl : Credentials → Bool
  | simple _ => false
  | sasl _ _ => true

/-- The element of credentials. -/
def encode : Credentials → Element
  | simple password => ⟨simpleTag, password⟩
  | sasl mechanism initial =>
    .sequence saslTag
      (.text Tag.octetString mechanism :: initial.toList.map (Element.mk Tag.octetString))

/-- The mechanism and what it needs first, from the elements of these. -/
def decodeSasl : List Element → Except Failure Credentials
  | [mechanism] => do
    return .sasl (← explain "cannot decode the SASL mechanism" mechanism.asText) none
  | [mechanism, initial] => do
    return .sasl (← explain "cannot decode the SASL mechanism" mechanism.asText) initial.value
  | parts => .error (.elementCount "SASL credentials" "1 or 2" parts.length)

/-- The credentials that an element is. -/
def decode (element : Element) : Except Failure Credentials :=
  if element.tag = simpleTag then .ok (.simple element.value)
  else if element.tag = saslTag then do
    decodeSasl (← explain "cannot decode the SASL credentials" element.asElements)
  else .error (.malformed s!"unsupported authentication type {showTag element.tag}")

end Credentials

/-- A client's request to be known under a name. -/
structure BindRequest where
  /-- The version of the protocol. -/
  version : Int32
  /-- The name to be known under. -/
  dn : String
  /-- The proof that the name is the client's. -/
  credentials : Credentials
  deriving DecidableEq, Repr

namespace BindRequest

/-- The version of the protocol that is current. -/
def currentVersion : Int32 := 3

/-- A request under the current version of the protocol. -/
def ofCredentials (dn : String) (credentials : Credentials) : BindRequest :=
  ⟨currentVersion, dn, credentials⟩

/-- The element of a request. -/
def encode (request : BindRequest) : Element :=
  .sequence Kind.bindRequest.tag
    [.integer Tag.integer request.version.toInt, .text Tag.octetString request.dn,
      request.credentials.encode]

/-- The request that an element is. -/
def decode (element : Element) : Except Failure BindRequest := do
  match ← element.asElements with
  | [version, dn, credentials] =>
    let version ← explain "cannot decode the protocol version" version.asInt32
    let dn ← explain "cannot decode the bind DN" dn.asText
    return ⟨version, dn, ← Credentials.decode credentials⟩
  | parts => throw (.elementCount "bind request" "3" parts.length)

end BindRequest

/-- A server's answer to a request to bind. -/
structure BindResponse where
  /-- How the request ended. -/
  outcome : Outcome
  /-- The server's challenge. -/
  challenge : Option Octets
  deriving DecidableEq, Repr

namespace BindResponse

/-- The type of the server's challenge. -/
def challengeTag : UInt8 := 0x87

/-- The element of a response. -/
def encode (response : BindResponse) : Element :=
  .sequence Kind.bindResponse.tag
    (response.outcome.encode ++ response.challenge.toList.map (Element.mk challengeTag))

/-- Takes the elements behind the outcome into a response: at most one challenge. -/
def withParts (response : BindResponse) : List Element → Except Failure BindResponse
  | [] => .ok response
  | part :: parts =>
    if part.tag = challengeTag ∧ response.challenge.isNone then
      withParts { response with challenge := some part.value } parts
    else .error (.malformed s!"unexpected bind response element type {showTag part.tag}")

/-- The response that an element is. -/
def decode (element : Element) : Except Failure BindResponse := do
  let (outcome, parts) ← Outcome.decode (← element.asElements)
  withParts ⟨outcome, none⟩ parts

end BindResponse

/-- The number of the operation that a request to abandon one names, which is not negative. -/
def decodeAbandoned (element : Element) : Except Failure Int32 := do
  let id ← element.asInt32
  if id < 0 then throw (.malformed s!"message ID to abandon must not be negative, got {id}")
  return id

end DirectoryAccess
