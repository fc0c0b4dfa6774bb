import DirectoryAccess.Operation.Entries
import DirectoryAccess.Proofs.Ber.Element

/-!
# Operations on entries read back

Attributes, modifications and the requests that carry them are read back from their
elements, as long as the value of the outermost element takes fewer than `2 ^ 32`
octets.
-/

namespace DirectoryAccess

open Ber (Element Tag isMultiOctet_octetString isMultiOctet_sequence)
open Ber.Element

/-- A choice is found by its own number where the numbers tell the choices apart. -/
theorem chooseByCode_code {α : Type} {what : String} {choices : List α} {code : α → Int32}
    {choice : α} (h : choices.find? (fun c => code c == code choice) = some choice) :
    chooseByCode what choices code (code choice) = .ok choice := by
  rw [chooseByCode, h]

namespace Attribute

@[simp] theorem encode_tag (attr : Attribute) : attr.encode.tag = Tag.sequence := rfl

@[simp] theorem encodeList_tag (attributes : List Attribute) :
    (encodeList attributes).tag = Tag.sequence := rfl

/-- An attribute is read back from its element. -/
theorem decode_encode {attr : Attribute} (hs : attr.encode.value.length < 2 ^ 32) :
    decode attr.encode = .ok attr := by
  have hparts : attr.encode.asElements = .ok [.text Tag.octetString attr.name,
      .sequence Tag.set (attr.values.map (Element.mk Tag.octetString))] :=
    asElements_sequence (by simp) hs
  have hvalues : (Element.sequence Tag.set
      (attr.values.map (Element.mk Tag.octetString))).asElements =
      .ok (attr.values.map (Element.mk Tag.octetString)) :=
    asElements_sequence_map (fun _ => isMultiOctet_octetString)
      (length_value_lt_of_mem (by simp) hs)
  simp only [decode, hparts, hvalues, explain_ok, ok_bind, asText_text, pure_eq_ok, List.map_map,
    Function.comp_def, List.map_id']

/-- A list of attributes is read back from its element. -/
theorem decodeList_encodeList {attributes : List Attribute}
    (hs : (encodeList attributes).value.length < 2 ^ 32) :
    decodeList (encodeList attributes) = .ok attributes := by
  have hparts : (encodeList attributes).asElements = .ok (attributes.map encode) :=
    asElements_sequence_map (fun _ => isMultiOctet_sequence) hs
  have hmembers : (attributes.map encode).mapM decode = .ok attributes :=
    mapM_map_eq_ok fun attr h =>
      decode_encode (length_value_lt_of_mem (List.mem_map_of_mem h) hs)
  rw [decodeList, hparts, explain_ok, ok_bind, hmembers]

end Attribute

/-- A change is the one with its own number. -/
@[simp] theorem Change.ofCode_code (change : Change) : ofCode change.code = .ok change := by
  apply chooseByCode_code
  cases change <;> rfl

namespace Modification

/-- A modification is read back from its element. -/
theorem decode_encode {modification : Modification}
    (hs : modification.encode.value.length < 2 ^ 32) :
    decode modification.encode = .ok modification := by
  have hparts : modification.encode.asElements =
      .ok [.integer Tag.enumerated modification.change.code.toInt, modification.target.encode] :=
    asElements_sequence (by simp) hs
  have htarget : Attribute.decode modification.target.encode = .ok modification.target :=
    Attribute.decode_encode (length_value_lt_of_mem (by simp) hs)
  simp only [decode, hparts, htarget, explain_ok, ok_bind, asInt32_integer, Change.ofCode_code,
    pure_eq_ok]

end Modification

/-- An entry is read back from its element, for either kind that sends one. -/
theorem Entry.decode_encode {kind : Kind} {entry : Entry}
    (hs : (entry.encode kind).value.length < 2 ^ 32) :
    decode kind (entry.encode kind) = .ok entry := by
  have hparts : (entry.encode kind).asElements =
      .ok [.text Tag.octetString entry.dn, Attribute.encodeList entry.attributes] :=
    asElements_sequence (by simp) hs
  have hattributes : Attribute.decodeList (Attribute.encodeList entry.attributes) =
      .ok entry.attributes :=
    Attribute.decodeList_encodeList (length_value_lt_of_mem (by simp) hs)
  simp only [decode, hparts, hattributes, explain_ok, ok_bind, asText_text, pure_eq_ok]

/-- A request to modify an entry is read back from its element. -/
theorem ModifyRequest.decode_encode {request : ModifyRequest}
    (hs : request.encode.value.length < 2 ^ 32) : decode request.encode = .ok request := by
  have hparts : request.encode.asElements =
      .ok [.text Tag.octetString request.dn,
        .sequence Tag.sequence (request.modifications.map Modification.encode)] :=
    asElements_sequence (by simp) hs
  have hsize : (Element.sequence Tag.sequence
      (request.modifications.map Modification.encode)).value.length < 2 ^ 32 :=
    length_value_lt_of_mem (by simp) hs
  have hchanges : (Element.sequence Tag.sequence
      (request.modifications.map Modification.encode)).asElements =
      .ok (request.modifications.map Modification.encode) :=
    asElements_sequence_map (fun _ => isMultiOctet_sequence) hsize
  have hmembers : (request.modifications.map Modification.encode).mapM Modification.decode =
      .ok request.modifications :=
    mapM_map_eq_ok fun modification h =>
      Modification.decode_encode (length_value_lt_of_mem (List.mem_map_of_mem h) hsize)
  simp only [decode, hparts, hchanges, hmembers, explain_ok, ok_bind, asText_text, pure_eq_ok]

@[simp] theorem ModifyDnRequest.isMultiOctet_newSuperiorTag :
    Ber.isMultiOctet newSuperiorTag = false := by decide

/-- A request to rename an entry is read back from its element. -/
theorem ModifyDnRequest.decode_encode {request : ModifyDnRequest}
    (hs : request.encode.value.length < 2 ^ 32) : decode request.encode = .ok request := by
  obtain ⟨dn, newRdn, deleteOldRdn, newSuperior⟩ := request
  cases newSuperior with
  | none =>
      have hparts : (encode ⟨dn, newRdn, deleteOldRdn, none⟩).asElements =
          .ok [.text Tag.octetString dn, .text Tag.octetString newRdn,
            .boolean Tag.boolean deleteOldRdn] :=
        asElements_sequence (by simp) hs
      simp [decode, hparts, decodeSuperior]
  | some superior =>
      have hparts : (encode ⟨dn, newRdn, deleteOldRdn, some superior⟩).asElements =
          .ok [.text Tag.octetString dn, .text Tag.octetString newRdn,
            .boolean Tag.boolean deleteOldRdn, .text newSuperiorTag superior] :=
        asElements_sequence (by simp) hs
      simp [decode, hparts, decodeSuperior]

/-- A request to compare a value is read back from its element. -/
theorem CompareRequest.decode_encode {request : CompareRequest}
    (hs : request.encode.value.length < 2 ^ 32) : decode request.encode = .ok request := by
  have hparts : request.encode.asElements =
      .ok [.text Tag.octetString request.dn,
        .sequence Tag.sequence
          [.text Tag.octetString request.description, ⟨Tag.octetString, request.value⟩]] :=
    asElements_sequence (by simp) hs
  have hassertion : (Element.sequence Tag.sequence
      [.text Tag.octetString request.description, ⟨Tag.octetString, request.value⟩]).asElements =
      .ok [.text Tag.octetString request.description, ⟨Tag.octetString, request.value⟩] :=
    asElements_sequence (by simp) (length_value_lt_of_mem (by simp) hs)
  simp only [decode, decodeAssertion, hparts, hassertion, explain_ok, ok_bind, asText_text,
    pure_eq_ok]

end DirectoryAccess
