import DirectoryAccess.Proofs.Filter.Codec
import DirectoryAccess.Proofs.Operation.Entries
import DirectoryAccess.Proofs.Operation.Responses

/-!
# Operations read back

Every operation whose element has a value of fewer than `2 ^ 32` octets is read back
from its octets, but for two kinds that may carry what no reader accepts: the number
of an operation to abandon may be negative, and the filter of a search may be one
that is not read back. Such an operation is refused, and never read as another one
(`Body.decode_encode_eq_ok_iff`).
-/

namespace DirectoryAccess

open Ber (Element Tag isMultiOctet)
open Ber.Element

/-! ## Binding and abandoning -/

/-- Credentials have types of one octet. -/
@[simp] theorem Credentials.isMultiOctet_tag_encode (credentials : Credentials) :
    isMultiOctet credentials.encode.tag = false := by
  cases credentials with
  | simple password => exact (by decide : isMultiOctet simpleTag = false)
  | sasl mechanism initial => exact (by decide : isMultiOctet saslTag = false)

/-- Credentials are read back from their element. -/
theorem Credentials.decode_encode {credentials : Credentials}
    (hs : credentials.encode.value.length < 2 ^ 32) :
    decode credentials.encode = .ok credentials := by
  cases credentials with
  | simple password => rfl
  | sasl mechanism initial =>
      have hne : saslTag ≠ simpleTag := by decide
      have hparts : (sasl mechanism initial).encode.asElements =
          .ok (.text Tag.octetString mechanism ::
            initial.toList.map (Element.mk Tag.octetString)) := by
        refine asElements_sequence ?_ hs
        cases initial <;> simp
      rw [decode, hparts]
      cases initial <;> simp [encode, hne, decodeSasl]

/-- A request to bind is read back from its element. -/
theorem BindRequest.decode_encode {request : BindRequest}
    (hs : request.encode.value.length < 2 ^ 32) : decode request.encode = .ok request := by
  have hparts : request.encode.asElements =
      .ok [.integer Tag.integer request.version.toInt, .text Tag.octetString request.dn,
        request.credentials.encode] :=
    asElements_sequence (by simp) hs
  have hcredentials : Credentials.decode request.credentials.encode = .ok request.credentials :=
    Credentials.decode_encode (length_value_lt_of_mem (by simp) hs)
  simp only [decode, hparts, hcredentials, explain_ok, ok_bind, asInt32_integer, asText_text,
    pure_eq_ok]

/-- The number of an operation to abandon is read back where it is not negative. -/
theorem decodeAbandoned_encode (tag : UInt8) (id v : Int32) :
    decodeAbandoned (.integer tag id.toInt) = .ok v ↔ v = id ∧ 0 ≤ id := by
  rw [decodeAbandoned, asInt32_integer, ok_bind]
  by_cases h : id < 0
  · have hn : ¬ 0 ≤ id := Int32.not_le.mpr h
    simp [h, hn]
  · have hp : 0 ≤ id := Int32.not_lt.mp h
    simp [h, hp, eq_comm]

/-! ## Searching -/

@[simp] theorem SearchScope.ofCode_code (scope : SearchScope) : ofCode scope.code = .ok scope := by
  apply chooseByCode_code
  cases scope <;> rfl

@[simp] theorem Dereferencing.ofCode_code (policy : Dereferencing) :
    ofCode policy.code = .ok policy := by
  apply chooseByCode_code
  cases policy <;> rfl

/-- A limit that is kept is the limit of its own number. -/
@[simp] theorem SearchLimit.ofInt32_value (limit : SearchLimit) : ofInt32 limit.value = limit := by
  rw [ofInt32, dif_pos limit.zero_le_value]

/-- What is read from the element of a search is that search, and it is read where its filter
is read back. -/
theorem SearchRequest.decode_encode {request r : SearchRequest}
    (hs : request.encode.value.length < 2 ^ 32) :
    decode request.encode = .ok r ↔
      r = request ∧ Filter.decode request.filter.encode = .ok request.filter := by
  have hparts : request.encode.asElements =
      .ok [.text Tag.octetString request.base,
        .integer Tag.enumerated request.scope.code.toInt,
        .integer Tag.enumerated request.dereferencing.code.toInt,
        .integer Tag.integer request.sizeLimit.value.toInt,
        .integer Tag.integer request.timeLimit.value.toInt,
        .boolean Tag.boolean request.typesOnly,
        request.filter.encode,
        .texts Tag.sequence request.attributes] :=
    asElements_sequence (by simp [Filter.isMultiOctet_tag_encode]) hs
  have hattributes : (Element.texts Tag.sequence request.attributes).asTexts =
      .ok request.attributes :=
    asTexts_texts (length_value_lt_of_mem (by simp) hs)
  have hfilter (g : Filter) : explain "cannot decode the search filter"
      (Filter.decode request.filter.encode) = .ok g ↔
        g = request.filter ∧ Filter.decode request.filter.encode = .ok request.filter := by
    rw [explain_eq_ok_iff]
    constructor
    · intro h
      have hg : g = request.filter :=
        Filter.eq_of_decode_encode (length_value_lt_of_mem (by simp) hs) h
      exact ⟨hg, hg ▸ h⟩
    · rintro ⟨rfl, h⟩
      exact h
  simp only [decode, hparts, hattributes, explain_ok, ok_bind, asInt32_integer, asText_text,
    asBool_boolean, SearchScope.ofCode_code, Dereferencing.ofCode_code,
    SearchLimit.ofInt32_value]
  exact bind_pure_eq_ok_iff hfilter r

/-! ## Extended requests -/

/-- The identifier of a text that is not empty is that identifier. -/
@[simp] theorem Oid.ofString_text (oid : Oid) : ofString oid.text = .ok oid := by
  rw [ofString, dif_neg oid.text_ne_empty]

/-- An extended request is read back from its element. -/
theorem ExtendedRequest.decode_encode {request : ExtendedRequest}
    (hs : request.encode.value.length < 2 ^ 32) : decode request.encode = .ok request := by
  have hparts : request.encode.asElements =
      .ok (.text oidTag request.oid.text :: request.value.toList.map (Element.mk valueTag)) := by
    have htags : isMultiOctet oidTag = false ∧ isMultiOctet valueTag = false := by decide
    refine asElements_sequence ?_ hs
    cases request.value <;> simp [htags]
  obtain ⟨oid, value⟩ := request
  rw [decode, hparts]
  cases value <;> simp [decodeOid]

/-! ## All operations -/

/-- The type of an operation takes one octet. -/
theorem Kind.isMultiOctet_tag (kind : Kind) : isMultiOctet kind.tag = false := by
  cases kind <;> decide

/-- The element of an operation has the type of its kind. -/
theorem Body.tag_encode (kind : Kind) (body : Body kind) :
    (Body.encode kind body).tag = kind.tag := by
  cases kind <;> rfl

/-- Whether an operation carries nothing that no reader accepts: a number to abandon that is not
negative, a filter that is read back. -/
def Operation.ReadsBack : Operation → Prop
  | ⟨.abandonRequest, id⟩ => 0 ≤ id
  | ⟨.searchRequest, request⟩ => Filter.decode request.filter.encode = .ok request.filter
  | _ => True

/-- What is read from the element of an operation as one of its kind is that operation, and it
is read where the operation carries nothing that no reader accepts. -/
theorem Body.decode_encode_eq_ok_iff (kind : Kind) (body b : Body kind)
    (hs : (Body.encode kind body).value.length < 2 ^ 32) :
    Body.decode kind (Body.encode kind body) = .ok b ↔
      b = body ∧ Operation.ReadsBack ⟨kind, body⟩ := by
  cases kind with
  | bindRequest => exact eq_ok_iff_of_eq_ok (BindRequest.decode_encode hs)
  | bindResponse => exact eq_ok_iff_of_eq_ok (BindResponse.decode_encode hs)
  | unbindRequest => exact eq_ok_iff_of_eq_ok rfl
  | searchRequest => exact SearchRequest.decode_encode hs
  | searchResultEntry => exact eq_ok_iff_of_eq_ok (Entry.decode_encode hs)
  | searchResultDone => exact eq_ok_iff_of_eq_ok (decodeOutcome_encodeOutcome hs)
  | searchResultReference =>
      exact eq_ok_iff_of_eq_ok (explain_eq_ok_iff.mpr (asTexts_texts hs))
  | modifyRequest => exact eq_ok_iff_of_eq_ok (ModifyRequest.decode_encode hs)
  | modifyResponse => exact eq_ok_iff_of_eq_ok (decodeOutcome_encodeOutcome hs)
  | addRequest => exact eq_ok_iff_of_eq_ok (Entry.decode_encode hs)
  | addResponse => exact eq_ok_iff_of_eq_ok (decodeOutcome_encodeOutcome hs)
  | deleteRequest => exact eq_ok_iff_of_eq_ok (asText_text Kind.deleteRequest.tag body)
  | deleteResponse => exact eq_ok_iff_of_eq_ok (decodeOutcome_encodeOutcome hs)
  | modifyDnRequest => exact eq_ok_iff_of_eq_ok (ModifyDnRequest.decode_encode hs)
  | modifyDnResponse => exact eq_ok_iff_of_eq_ok (decodeOutcome_encodeOutcome hs)
  | compareRequest => exact eq_ok_iff_of_eq_ok (CompareRequest.decode_encode hs)
  | compareResponse => exact eq_ok_iff_of_eq_ok (decodeOutcome_encodeOutcome hs)
  | abandonRequest => exact decodeAbandoned_encode Kind.abandonRequest.tag body b
  | extendedRequest => exact eq_ok_iff_of_eq_ok (ExtendedRequest.decode_encode hs)
  | extendedResponse => exact eq_ok_iff_of_eq_ok (ExtendedResponse.decode_encode hs)
  | intermediateResponse => exact eq_ok_iff_of_eq_ok (IntermediateResponse.decode_encode hs)

/-- An element that says its own kind is read as one of that kind. -/
theorem decodeAs_encode_eq_ok_iff (kind : Kind) (body b : Body kind)
    (hs : (Body.encode kind body).value.length < 2 ^ 32) :
    decodeAs kind (Body.encode kind body) = .ok b ↔
      b = body ∧ Operation.ReadsBack ⟨kind, body⟩ := by
  rw [decodeAs, if_pos (Body.tag_encode kind body), explain_eq_ok_iff,
    Body.decode_encode_eq_ok_iff kind body b hs]

namespace Operation

/-- The type of an operation's element takes one octet. -/
@[simp] theorem isMultiOctet_tag_encode (op : Operation) : isMultiOctet op.encode.tag = false := by
  rw [encode, Body.tag_encode]
  exact op.kind.isMultiOctet_tag

/-- What is read from the element of an operation is that operation, and it is read where the
operation carries nothing that no reader accepts. -/
theorem decode_encode_eq_ok_iff (op o : Operation) (hs : op.encode.value.length < 2 ^ 32) :
    decode op.encode = .ok o ↔ o = op ∧ op.ReadsBack := by
  obtain ⟨kind, body⟩ := op
  rw [decode, encode, Body.tag_encode, Kind.ofTag?_tag]
  exact bind_pure_eq_ok_iff (fun b => decodeAs_encode_eq_ok_iff kind body b hs) o

/-- The octets of an operation are those of its element, and read as that. -/
theorem ofOctets_toOctets_eq (op : Operation) (hs : op.encode.value.length < 2 ^ 32) :
    ofOctets op.toOctets = decode op.encode := by
  rw [ofOctets, toOctets, Element.decode_encode op.isMultiOctet_tag_encode hs, explain_ok, ok_bind]

/-- **Round trip of operations.** The element of an operation has the type of its kind. Where its
value takes fewer than `2 ^ 32` octets, and so does that of each element inside it, the octets
are read back as the operation exactly if its number to abandon is not negative and its filter is
read back; any other operation is refused, and not taken for another one. -/
theorem ofOctets_toOctets (op : Operation) (hs : op.encode.value.length < 2 ^ 32) :
    op.encode.tag = op.kind.tag ∧
      (ofOctets op.toOctets = .ok op ↔ op.ReadsBack) ∧
      (¬ op.ReadsBack → ∃ failure, ofOctets op.toOctets = .error failure) := by
  have hiff (o : Operation) : ofOctets op.toOctets = .ok o ↔ o = op ∧ op.ReadsBack := by
    rw [ofOctets_toOctets_eq op hs, decode_encode_eq_ok_iff op o hs]
  refine ⟨Body.tag_encode op.kind op.body, ?_, ?_⟩
  · rw [hiff op]
    exact and_iff_right rfl
  · intro hn
    cases h : ofOctets op.toOctets with
    | ok o => exact absurd ((hiff o).mp h).2 hn
    | error failure => exact ⟨failure, rfl⟩

/-- A search below an entry for what has an attribute but no name with the given parts. -/
def searchWithout (pattern : SubstringPattern) : Operation :=
  ⟨.searchRequest, ⟨"dc=x", .subtree, .always, .ofInt32 (-1), .ofInt32 300, true,
    .all [.not (.substrings "cn" pattern), .present "é"], ["*", "+"]⟩⟩

/-- A search for a name that begins with a letter is read back; one whose filter is empty is not. -/
theorem ofOctets_toOctets_searchWithout :
    (searchWithout ⟨some [0x61], [[0xFF, 0x00]], none⟩).encode.value.length < 2 ^ 32 ∧
      ofOctets (searchWithout ⟨some [0x61], [[0xFF, 0x00]], none⟩).toOctets =
        .ok (searchWithout ⟨some [0x61], [[0xFF, 0x00]], none⟩) ∧
      ∃ failure, ofOctets (searchWithout ⟨none, [], none⟩).toOctets = .error failure := by
  have hs : (searchWithout ⟨some [0x61], [[0xFF, 0x00]], none⟩).encode.value.length < 2 ^ 32 := by
    decide +kernel
  have hsnone : (searchWithout ⟨none, [], none⟩).encode.value.length < 2 ^ 32 := by
    decide +kernel
  have hreads : (searchWithout ⟨some [0x61], [[0xFF, 0x00]], none⟩).ReadsBack :=
    (Filter.decode_encode_eq_ok_iff (by decide +kernel)).mpr (by decide +kernel)
  have hnone : ¬ (searchWithout ⟨none, [], none⟩).ReadsBack := fun h =>
    absurd ((Filter.decode_encode_eq_ok_iff (by decide +kernel)).mp h)
      (by decide +kernel)
  exact ⟨hs, (ofOctets_toOctets _ hs).2.1.mpr hreads, (ofOctets_toOctets _ hsnone).2.2 hnone⟩

end Operation

end DirectoryAccess
