import DirectoryAccess.Attribute
import DirectoryAccess.Operation.Kind

/-!
# Operations on entries

What is sent to add, modify, rename or compare an entry, and how an entry that
was found is sent back, which is the way in which one to be added is sent.
-/

namespace DirectoryAccess

open Ber (Element Tag)

/-- A name with attributes. -/
structure Entry where
  /-- The name of the entry. -/
  dn : String
  /-- The attributes of the entry. -/
  attributes : List Attribute
  deriving DecidableEq, Repr

namespace Entry

/-- The element of an entry, for one of the two kinds that send one. -/
def encode (kind : Kind) (entry : Entry) : Element :=
  .sequence kind.tag [.text Tag.octetString entry.dn, Attribute.encodeList entry.attributes]

/-- The entry that an element of the kind is. -/
def decode (kind : Kind) (element : Element) : Except Failure Entry := do
  match ← element.asElements with
  | [dn, attributes] =>
    let dn ← explain "cannot decode the entry DN" dn.asText
    return ⟨dn, ← Attribute.decodeList attributes⟩
  | parts => throw (.elementCount kind.name "2" parts.length)

end Entry

/-- A request to modify an entry. -/
structure ModifyRequest where
  /-- The name of the entry. -/
  dn : String
  /-- What is to be done, in order. -/
  modifications : List Modification
  deriving DecidableEq, Repr

namespace ModifyRequest

/-- The element of a request. -/
def encode (request : ModifyRequest) : Element :=
  .sequence Kind.modifyRequest.tag
    [.text Tag.octetString request.dn,
      .sequence Tag.sequence (request.modifications.map Modification.encode)]

/-- The request that an element is. -/
def decode (element : Element) : Except Failure ModifyRequest := do
  match ← element.asElements with
  | [dn, changes] =>
    let dn ← explain "cannot decode the target DN" dn.asText
    let changes ← explain "cannot decode the list of changes" changes.asElements
    return ⟨dn, ← changes.mapM Modification.decode⟩
  | parts => throw (.elementCount "modify request" "2" parts.length)

end ModifyRequest

/-- A request to rename an entry or to move it. -/
structure ModifyDnRequest where
  /-- The name of the entry. -/
  dn : String
  /-- The new name below its superior. -/
  newRdn : String
  /-- Whether the values of the old name go. -/
  deleteOldRdn : Bool
  /-- The new superior, where the entry moves. -/
  newSuperior : Option String
  deriving DecidableEq, Repr

namespace ModifyDnRequest

/-- The type of the new superior. -/
def newSuperiorTag : UInt8 := 0x80

/-- The element of a request. -/
def encode (request : ModifyDnRequest) : Element :=
  .sequence Kind.modifyDnRequest.tag
    ([.text Tag.octetString request.dn, .text Tag.octetString request.newRdn,
      .boolean Tag.boolean request.deleteOldRdn] ++
      request.newSuperior.toList.map (Element.text newSuperiorTag))

/-- The new superior, from the elements behind the flag. -/
def decodeSuperior : List Element → Except Failure (Option String)
  | [] => .ok none
  | element :: _ => do
    return some (← explain "cannot decode the new superior DN"
      (element.expect newSuperiorTag >>= fun _ => element.asText))

/-- The request that an element is. -/
def decode (element : Element) : Except Failure ModifyDnRequest := do
  let parts ← element.asElements
  match parts with
  | dn :: newRdn :: deleteOldRdn :: rest =>
    if 4 < parts.length then throw (.elementCount "modify DN request" "3 or 4" parts.length)
    let dn ← explain "cannot decode the entry DN" dn.asText
    let newRdn ← explain "cannot decode the new RDN" newRdn.asText
    let deleteOldRdn ← explain "cannot decode the deleteOldRDN flag" deleteOldRdn.asBool
    return ⟨dn, newRdn, deleteOldRdn, ← decodeSuperior rest⟩
  | _ => throw (.elementCount "modify DN request" "3 or 4" parts.length)

end ModifyDnRequest

/-- A request to compare a value with those of an entry. -/
structure CompareRequest where
  /-- The name of the entry. -/
  dn : String
  /-- The attribute. -/
  description : String
  /-- The asserted value. -/
  value : Octets
  deriving DecidableEq, Repr

namespace CompareRequest

/-- The element of a request. -/
def encode (request : CompareRequest) : Element :=
  .sequence Kind.compareRequest.tag
    [.text Tag.octetString request.dn,
      .sequence Tag.sequence
        [.text Tag.octetString request.description, ⟨Tag.octetString, request.value⟩]]

/-- The attribute and the value that an element asserts. -/
def decodeAssertion (element : Element) : Except Failure (String × Octets) := do
  match ← explain "cannot decode the attribute value assertion" element.asElements with
  | [description, value] =>
    return (← explain "cannot decode the assertion attribute" description.asText, value.value)
  | parts => throw (.elementCount "attribute value assertion" "2" parts.length)

/-- The request that an element is. -/
def decode (element : Element) : Except Failure CompareRequest := do
  match ← element.asElements with
  | [dn, assertion] =>
    let dn ← explain "cannot decode the entry DN" dn.asText
    let (description, value) ← decodeAssertion assertion
    return ⟨dn, description, value⟩
  | parts => throw (.elementCount "compare request" "2" parts.length)

end CompareRequest

end DirectoryAccess
