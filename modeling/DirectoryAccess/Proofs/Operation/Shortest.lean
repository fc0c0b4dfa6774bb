import DirectoryAccess.Proofs.Filter.Shortest
import DirectoryAccess.Proofs.Operation.Codec
import DirectoryAccess.Proofs.Operation.PartTypes
import DirectoryAccess.Proofs.Outcome

/-!
# Written operations are the shortest

What an operation carries fits in the room of the element that it was read from
(`Body.fitsIn_of_decode`), part by part: a number loses its padding, a list of places
to go on at that is empty is left out, a negative limit becomes zero. The parts of a
compound request stay in their places, under the types of the grammar (`Rewritten`).
What is read is also something that is read back (`Body.readsBack_of_decode`), so an
operation that was read once is read again from fewer octets or as many.
-/

namespace DirectoryAccess

open Ber (Element Tag decodeInt32_eq_ok_iff)
open Ber.Element (FitIn FitsIn Replaces Rewritten retype)

variable {element : Element}

/-! ## Operations on entries -/

namespace Attribute

/-- An attribute fits in the element that it is read from. -/
theorem fitsIn_of_decode {attr : Attribute} (h : decode element = .ok attr) :
    attr.encode.FitsIn element := by
  obtain ⟨parts, hparts, h⟩ := explain_bind_eq_ok_iff.mp h
  split at h
  · obtain ⟨name, hname, h⟩ := explain_bind_eq_ok_iff.mp h
    obtain ⟨values, hvalues, h⟩ := explain_bind_eq_ok_iff.mp h
    cases h
    exact .sequence hparts (.cons (.text hname) (.cons (.sequence hvalues (.map_value _ _)) .nil))
  · cases h

/-- Attributes fit in the element that they are read from. -/
theorem fitsIn_of_decodeList {attributes : List Attribute}
    (h : decodeList element = .ok attributes) : (encodeList attributes).FitsIn element := by
  obtain ⟨parts, hparts, h⟩ := explain_bind_eq_ok_iff.mp h
  exact .sequence hparts (.map (fun _ _ => fitsIn_of_decode) h)

end Attribute

/-- A choice that is read has the number that is read. -/
theorem code_of_chooseByCode {α : Type} {what : String} {choices : List α} {code : α → Int32}
    {v : Int32} {choice : α} (h : chooseByCode what choices code v = .ok choice) :
    code choice = v := by
  rw [chooseByCode] at h
  split at h
  · rename_i found hfound
    cases h
    have hsame := List.find?_some hfound
    exact eq_of_beq hsame
  · cases h

/-- The number of a choice fits in the room of the number that the choice was read from. -/
theorem fitsIn_of_choice {α : Type} {what : String} {choices : List α} {code : α → Int32}
    {choice : α} {tag : UInt8}
    (h : (element.asInt32 >>= chooseByCode what choices code) = .ok choice) :
    FitsIn (.integer tag (code choice).toInt) element := by
  obtain ⟨v, hv, h⟩ := bind_eq_ok_iff.mp h
  rw [code_of_chooseByCode h]
  exact .integer hv

/-- A modification fits in the element that it is read from. -/
theorem Modification.fitsIn_of_decode {modification : Modification}
    (h : decode element = .ok modification) : modification.encode.FitsIn element := by
  obtain ⟨parts, hparts, h⟩ := explain_bind_eq_ok_iff.mp h
  split at h
  · obtain ⟨change, hchange, h⟩ := explain_bind_eq_ok_iff.mp h
    obtain ⟨attr, hattr, h⟩ := bind_eq_ok_iff.mp h
    cases h
    exact .sequence hparts
      (.cons (fitsIn_of_choice hchange) (.cons (Attribute.fitsIn_of_decode hattr) .nil))
  · cases h

/-- An entry is rewritten part by part. -/
theorem Entry.rewritten_of_decode {kind : Kind} {entry : Entry}
    (h : decode kind element = .ok entry) :
    Rewritten (Kind.partTypes .addRequest) element (entry.encode kind) := by
  obtain ⟨parts, hparts, h⟩ := bind_eq_ok_iff.mp h
  split at h
  · obtain ⟨dn, hdn, h⟩ := explain_bind_eq_ok_iff.mp h
    obtain ⟨attributes, hattributes, h⟩ := bind_eq_ok_iff.mp h
    cases h
    exact .sequence hparts (.cons ⟨rfl, .text hdn⟩
      (.cons ⟨rfl, Attribute.fitsIn_of_decodeList hattributes⟩ .nil))
  · cases h

theorem ModifyRequest.rewritten_of_decode {request : ModifyRequest}
    (h : decode element = .ok request) :
    Rewritten (Kind.partTypes .modifyRequest) element request.encode := by
  obtain ⟨parts, hparts, h⟩ := bind_eq_ok_iff.mp h
  split at h
  · obtain ⟨dn, hdn, h⟩ := explain_bind_eq_ok_iff.mp h
    obtain ⟨changes, hchanges, h⟩ := explain_bind_eq_ok_iff.mp h
    obtain ⟨modifications, hmodifications, h⟩ := bind_eq_ok_iff.mp h
    cases h
    have hmembers : FitIn (modifications.map Modification.encode) changes :=
      .map (fun _ _ => Modification.fitsIn_of_decode) hmodifications
    exact .sequence hparts
      (.cons ⟨rfl, .text hdn⟩ (.cons ⟨rfl, .sequence hchanges hmembers⟩ .nil))
  · cases h

namespace ModifyDnRequest

/-- The new superior is the one part behind the flag, whose type reading looks at. -/
theorem replaces_of_decodeSuperior {parts : List Element} {superior : Option String}
    (hlength : parts.length ≤ 1) (h : decodeSuperior parts = .ok superior) :
    List.Forall₂ Replaces (superior.toList.map (Element.text newSuperiorTag))
      (retype [none] parts) := by
  rcases parts with _ | ⟨part, _ | ⟨_, _⟩⟩
  · cases h
    exact .nil
  · obtain ⟨dn, hdn, h⟩ := explain_bind_eq_ok_iff.mp h
    obtain ⟨⟨⟩, htag, hdn⟩ := bind_eq_ok_iff.mp hdn
    cases h
    exact .cons ⟨(Ber.Element.tag_of_expect htag).symm, .text hdn⟩ .nil
  · exact absurd hlength (by simp)

/-- A request for another name is rewritten part by part. -/
theorem rewritten_of_decode {request : ModifyDnRequest} (h : decode element = .ok request) :
    Rewritten (Kind.partTypes .modifyDnRequest) element request.encode := by
  obtain ⟨parts, hparts, h⟩ := bind_eq_ok_iff.mp h
  split at h
  · split at h
    · cases h
    rename_i hlength
    obtain ⟨dn, hdn, h⟩ := explain_bind_eq_ok_iff.mp h
    obtain ⟨newRdn, hnewRdn, h⟩ := explain_bind_eq_ok_iff.mp h
    obtain ⟨flag, hflag, h⟩ := explain_bind_eq_ok_iff.mp h
    obtain ⟨superior, hsuperior, h⟩ := bind_eq_ok_iff.mp h
    cases h
    simp only [List.length_cons] at hlength
    exact .sequence hparts (.cons ⟨rfl, .text hdn⟩ (.cons ⟨rfl, .text hnewRdn⟩
      (.cons ⟨rfl, .boolean hflag⟩ (replaces_of_decodeSuperior (by omega) hsuperior))))
  · cases h

end ModifyDnRequest

namespace CompareRequest

/-- An assertion fits in the element that it is read from. -/
theorem fitsIn_of_decodeAssertion {description : String} {value : Octets}
    (h : decodeAssertion element = .ok (description, value)) :
    FitsIn (.sequence Tag.sequence
      [.text Tag.octetString description, ⟨Tag.octetString, value⟩]) element := by
  obtain ⟨parts, hparts, h⟩ := explain_bind_eq_ok_iff.mp h
  split at h
  · obtain ⟨name, hname, h⟩ := explain_bind_eq_ok_iff.mp h
    cases h
    exact .sequence hparts (.cons (.text hname) (.map_value _ [_]))
  · cases h

/-- A comparison is rewritten part by part. -/
theorem rewritten_of_decode {request : CompareRequest} (h : decode element = .ok request) :
    Rewritten (Kind.partTypes .compareRequest) element request.encode := by
  obtain ⟨parts, hparts, h⟩ := bind_eq_ok_iff.mp h
  split at h
  · obtain ⟨dn, hdn, h⟩ := explain_bind_eq_ok_iff.mp h
    obtain ⟨⟨description, value⟩, hassertion, h⟩ := bind_eq_ok_iff.mp h
    cases h
    exact .sequence hparts (.cons ⟨rfl, .text hdn⟩
      (.cons ⟨rfl, fitsIn_of_decodeAssertion hassertion⟩ .nil))
  · cases h

end CompareRequest

/-! ## Outcomes and what follows them -/

namespace Outcome

/-- Referrals fit in the parts that they are read from, where an empty list is not written. -/
theorem ReferralParts.fitIn {urls : List String} {parts : List Element}
    (h : ReferralParts urls parts) :
    FitIn (if urls.isEmpty then [] else [.texts referralsTag urls]) parts := by
  cases h with
  | none => exact .nil
  | list htag htexts =>
      split
      · exact .nil
      · exact .cons (.texts (Element.asTexts_eq_ok_iff.mpr htexts)) .nil

/-- An outcome fits in the room of the elements that it is read from. -/
theorem Grammatical.fitIn {outcome : Outcome} {parts : List Element}
    (h : outcome.Grammatical parts) : FitIn outcome.encode parts := by
  obtain ⟨hcode, hmatchedDn, hdiagnostic, hreferrals⟩ := h
  have hmatchedDn := Element.asText_iff_holdsOptional.mpr hmatchedDn
  have hdiagnostic := Element.asText_iff_holdsOptional.mpr hdiagnostic
  exact .cons (.integer (decodeInt32_eq_ok_iff.mpr hcode))
    (.cons (.text hmatchedDn) (.cons (.text hdiagnostic) hreferrals.fitIn))

/-- An outcome fits in front of what fits in the room of the elements behind it. -/
theorem fitIn_of_decode {parts rest : List Element} {outcome : Outcome}
    (h : decode parts = .ok (outcome, rest)) {more : List Element} (hmore : FitIn more rest) :
    FitIn (outcome.encode ++ more) parts := by
  obtain ⟨front, hfront, rfl⟩ := exists_of_decode h
  exact hfront.fitIn.append hmore

end Outcome

/-- An outcome fits in the element that it is read from. -/
theorem fitsIn_of_decodeOutcome {kind : Kind} {outcome : Outcome}
    (h : decodeOutcome element = .ok outcome) : (encodeOutcome kind outcome).FitsIn element := by
  obtain ⟨parts, hparts, h⟩ := explain_bind_eq_ok_iff.mp h
  obtain ⟨⟨taken, rest⟩, hdecode, h⟩ := bind_eq_ok_iff.mp h
  cases rest with
  | nil =>
      cases h
      have hfit := Outcome.fitIn_of_decode hdecode .nil
      rw [List.append_nil] at hfit
      exact .sequence hparts hfit
  | cons part rest => cases h

namespace BindResponse

/-- The elements that are taken into a response are those of the challenge. -/
theorem encode_of_withParts {response taken : BindResponse} {parts : List Element}
    (h : withParts response parts = .ok taken) :
    taken.outcome = response.outcome ∧
      taken.challenge.toList.map (Element.mk challengeTag) =
        response.challenge.toList.map (Element.mk challengeTag) ++ parts := by
  induction parts generalizing response with
  | nil =>
      cases h
      exact ⟨rfl, (List.append_nil _).symm⟩
  | cons part parts ih =>
      obtain ⟨tag, value⟩ := part
      rw [withParts] at h
      split at h
      · rename_i hpart
        obtain ⟨rfl, hnone⟩ := hpart
        obtain ⟨houtcome, hchallenge⟩ := ih h
        refine ⟨houtcome, ?_⟩
        rw [hchallenge, Option.isNone_iff_eq_none.mp hnone]
        rfl
      · cases h

/-- A response to a bind fits in the element that it is read from. -/
theorem fitsIn_of_decode {response : BindResponse} (h : decode element = .ok response) :
    response.encode.FitsIn element := by
  obtain ⟨parts, hparts, h⟩ := bind_eq_ok_iff.mp h
  obtain ⟨⟨outcome, rest⟩, hdecode, h⟩ := bind_eq_ok_iff.mp h
  obtain ⟨houtcome, hchallenge⟩ := encode_of_withParts h
  refine .sequence hparts ?_
  rw [houtcome, hchallenge]
  exact Outcome.fitIn_of_decode hdecode (.refl rest)

end BindResponse

namespace NamedValue

/-- The elements that are taken into a response are those of its name and its value. -/
theorem encode_of_withParts {kind : Kind} {oidTag valueTag : UInt8} {named taken : NamedValue}
    {parts : List Element} (h : withParts kind oidTag valueTag named parts = .ok taken) :
    taken.encode oidTag valueTag = named.encode oidTag valueTag ++ parts := by
  induction parts generalizing named with
  | nil =>
      cases h
      rw [List.append_nil]
  | cons part parts ih =>
      obtain ⟨oid, value⟩ := named
      rw [withParts] at h
      split at h
      · rename_i hpart
        obtain ⟨ht, hoid, hvalue⟩ := hpart
        obtain ⟨text, htext, h⟩ := explain_bind_eq_ok_iff.mp h
        have hsame := Element.text_of_asText htext ht
        obtain rfl := Option.isNone_iff_eq_none.mp hoid
        obtain rfl := Option.isNone_iff_eq_none.mp hvalue
        rw [ih h, ← hsame]
        rfl
      split at h
      · rename_i hpart
        obtain ⟨rfl, hvalue⟩ := hpart
        obtain rfl := Option.isNone_iff_eq_none.mp hvalue
        rw [ih h]
        simp [encode]
      · cases h

end NamedValue

theorem ExtendedResponse.fitsIn_of_decode {response : ExtendedResponse}
    (h : decode element = .ok response) : response.encode.FitsIn element := by
  obtain ⟨parts, hparts, h⟩ := bind_eq_ok_iff.mp h
  obtain ⟨⟨outcome, rest⟩, hdecode, h⟩ := bind_eq_ok_iff.mp h
  obtain ⟨named, hnamed, h⟩ := bind_eq_ok_iff.mp h
  cases h
  refine .sequence hparts ?_
  rw [NamedValue.encode_of_withParts hnamed]
  exact Outcome.fitIn_of_decode hdecode (.refl rest)

theorem IntermediateResponse.fitsIn_of_decode {named : NamedValue}
    (h : decode element = .ok named) : (encode named).FitsIn element := by
  obtain ⟨parts, hparts, h⟩ := bind_eq_ok_iff.mp h
  refine .sequence hparts ?_
  rw [NamedValue.encode_of_withParts h]
  exact .refl parts

/-! ## Binding and extended requests -/

/-- Credentials fit in the room of the element that they were read from, and have its type. -/
theorem Credentials.replaces_of_decode {credentials : Credentials}
    (h : decode element = .ok credentials) : credentials.encode.Replaces element := by
  rw [decode] at h
  split at h
  · rename_i htag
    cases h
    exact ⟨htag.symm, Nat.le_refl _⟩
  split at h
  · rename_i htag
    obtain ⟨parts, hparts, h⟩ := explain_bind_eq_ok_iff.mp h
    unfold decodeSasl at h
    split at h
    · obtain ⟨mechanism, hmechanism, h⟩ := explain_bind_eq_ok_iff.mp h
      cases h
      exact ⟨htag.symm, .sequence hparts (.cons (.text hmechanism) .nil)⟩
    · obtain ⟨mechanism, hmechanism, h⟩ := explain_bind_eq_ok_iff.mp h
      cases h
      exact ⟨htag.symm, .sequence hparts (.cons (.text hmechanism) (.map_value _ [_]))⟩
    · cases h
  · cases h

theorem BindRequest.rewritten_of_decode {request : BindRequest}
    (h : decode element = .ok request) :
    Rewritten (Kind.partTypes .bindRequest) element request.encode := by
  obtain ⟨parts, hparts, h⟩ := bind_eq_ok_iff.mp h
  split at h
  · obtain ⟨version, hversion, h⟩ := explain_bind_eq_ok_iff.mp h
    obtain ⟨dn, hdn, h⟩ := explain_bind_eq_ok_iff.mp h
    obtain ⟨credentials, hcredentials, h⟩ := bind_eq_ok_iff.mp h
    cases h
    exact .sequence hparts (.cons ⟨rfl, .integer hversion⟩ (.cons ⟨rfl, .text hdn⟩
      (.cons (Credentials.replaces_of_decode hcredentials) .nil)))
  · cases h

/-- The number of an operation to abandon is an integer, and not negative. -/
theorem decodeAbandoned_eq_ok {id : Int32} (h : decodeAbandoned element = .ok id) :
    element.asInt32 = .ok id ∧ 0 ≤ id := by
  obtain ⟨v, hv, h⟩ := bind_eq_ok_iff.mp h
  split at h
  · cases h
  · rename_i hneg
    cases h
    exact ⟨hv, Int32.not_lt.mp hneg⟩

/-- An identifier has the text that it is made for. -/
theorem Oid.text_of_ofString {text : String} {oid : Oid} (h : ofString text = .ok oid) :
    oid.text = text := by
  rw [ofString] at h
  split at h
  · cases h
  · cases h
    rfl

/-- An identifier fits in the element that it is read from. -/
theorem Oid.fitsIn_of_ofString {oid : Oid} {tag : UInt8}
    (h : (element.asText >>= ofString) = .ok oid) : FitsIn (.text tag oid.text) element := by
  obtain ⟨text, htext, h⟩ := bind_eq_ok_iff.mp h
  rw [text_of_ofString h]
  exact .text htext

theorem ExtendedRequest.rewritten_of_decode {request : ExtendedRequest}
    (h : decode element = .ok request) :
    Rewritten (Kind.partTypes .extendedRequest) element request.encode := by
  obtain ⟨parts, hparts, h⟩ := bind_eq_ok_iff.mp h
  split at h
  · obtain ⟨oid, hoid, h⟩ := explain_bind_eq_ok_iff.mp h
    cases h
    exact .sequence hparts (.cons ⟨rfl, Oid.fitsIn_of_ofString hoid⟩ .nil)
  · obtain ⟨oid, hoid, h⟩ := explain_bind_eq_ok_iff.mp h
    cases h
    exact .sequence hparts
      (.cons ⟨rfl, Oid.fitsIn_of_ofString hoid⟩ (.cons ⟨rfl, Nat.le_refl _⟩ .nil))
  · cases h

/-! ## Searching -/

/-- A limit fits in the room of the number that it was made of, which may be negative: zero takes
one octet, and no number takes none. -/
theorem SearchLimit.fitsIn_of_asInt32 {v : Int32} {tag : UInt8} (h : element.asInt32 = .ok v) :
    FitsIn (.integer tag (ofInt32 v).value.toInt) element := by
  have hfits : FitsIn (.integer tag v.toInt) element := .integer h
  rw [ofInt32]
  split
  · exact hfits
  · have hzero : (Ber.encodeInteger (0 : Int32).toInt).length = 1 := by decide +kernel
    have hpos := List.length_pos_iff.mpr (Ber.encodeInteger_ne_nil v.toInt)
    have hle : (Ber.encodeInteger v.toInt).length ≤ element.value.length := hfits
    change (Ber.encodeInteger (0 : Int32).toInt).length ≤ element.value.length
    omega

/-- A search is rewritten part by part, and its filter can be read. -/
theorem SearchRequest.rewritten_and_readable_of_decode {request : SearchRequest}
    (h : decode element = .ok request) :
    Rewritten (Kind.partTypes .searchRequest) element request.encode ∧
      request.filter.Readable := by
  obtain ⟨parts, hparts, h⟩ := bind_eq_ok_iff.mp h
  split at h
  · obtain ⟨base, hbase, h⟩ := explain_bind_eq_ok_iff.mp h
    obtain ⟨scope, hscope, h⟩ := explain_bind_eq_ok_iff.mp h
    obtain ⟨policy, hpolicy, h⟩ := explain_bind_eq_ok_iff.mp h
    obtain ⟨sizeLimit, hsizeLimit, h⟩ := explain_bind_eq_ok_iff.mp h
    obtain ⟨timeLimit, htimeLimit, h⟩ := explain_bind_eq_ok_iff.mp h
    obtain ⟨typesOnly, htypesOnly, h⟩ := explain_bind_eq_ok_iff.mp h
    obtain ⟨filter, hfilter, h⟩ := explain_bind_eq_ok_iff.mp h
    obtain ⟨attributes, hattributes, h⟩ := explain_bind_eq_ok_iff.mp h
    cases h
    have hfilterTag := (Filter.tag_encode filter).trans (Filter.tag_of_decode hfilter)
    refine ⟨.sequence hparts ?_, Filter.readable_of_decode hfilter⟩
    exact .cons ⟨rfl, .text hbase⟩ (.cons ⟨rfl, fitsIn_of_choice hscope⟩
      (.cons ⟨rfl, fitsIn_of_choice hpolicy⟩
        (.cons ⟨rfl, SearchLimit.fitsIn_of_asInt32 hsizeLimit⟩
          (.cons ⟨rfl, SearchLimit.fitsIn_of_asInt32 htimeLimit⟩
            (.cons ⟨rfl, .boolean htypesOnly⟩
              (.cons ⟨hfilterTag, Filter.fitsIn_of_decodeNested hfilter⟩
                (.cons ⟨rfl, .texts hattributes⟩ .nil)))))))
  · cases h

/-- The filter of a search that was read is read back. -/
theorem SearchRequest.decode_encode_filter {request : SearchRequest}
    (hs : element.value.length < 2 ^ 32) (h : decode element = .ok request) :
    Filter.decode request.filter.encode = .ok request.filter := by
  obtain ⟨hrewritten, hreadable⟩ := rewritten_and_readable_of_decode h
  have hsize : request.filter.encode.value.length < 2 ^ 32 :=
    Element.length_value_lt_of_mem (by simp) (Nat.lt_of_le_of_lt hrewritten.fitsIn hs)
  exact (Filter.decode_encode_eq_ok_iff hsize).mpr ((Filter.readable_iff _).mp hreadable)

/-! ## All operations -/

namespace Body

/-- What an operation carries fits in the room of the element that it was read from. -/
theorem fitsIn_of_decode {kind : Kind} {body : Body kind} (h : decode kind element = .ok body) :
    (encode kind body).FitsIn element := by
  cases kind with
  | bindRequest => exact (BindRequest.rewritten_of_decode h).fitsIn
  | bindResponse => exact BindResponse.fitsIn_of_decode h
  | unbindRequest => exact Nat.zero_le _
  | searchRequest => exact (SearchRequest.rewritten_and_readable_of_decode h).1.fitsIn
  | searchResultEntry => exact (Entry.rewritten_of_decode h).fitsIn
  | searchResultDone => exact fitsIn_of_decodeOutcome h
  | searchResultReference => exact .texts (explain_eq_ok_iff.mp h)
  | modifyRequest => exact (ModifyRequest.rewritten_of_decode h).fitsIn
  | modifyResponse => exact fitsIn_of_decodeOutcome h
  | addRequest => exact (Entry.rewritten_of_decode h).fitsIn
  | addResponse => exact fitsIn_of_decodeOutcome h
  | deleteRequest => exact .text h
  | deleteResponse => exact fitsIn_of_decodeOutcome h
  | modifyDnRequest => exact (ModifyDnRequest.rewritten_of_decode h).fitsIn
  | modifyDnResponse => exact fitsIn_of_decodeOutcome h
  | compareRequest => exact (CompareRequest.rewritten_of_decode h).fitsIn
  | compareResponse => exact fitsIn_of_decodeOutcome h
  | abandonRequest => exact .integer (decodeAbandoned_eq_ok h).1
  | extendedRequest => exact (ExtendedRequest.rewritten_of_decode h).fitsIn
  | extendedResponse => exact ExtendedResponse.fitsIn_of_decode h
  | intermediateResponse => exact IntermediateResponse.fitsIn_of_decode h

/-- What is read from an element carries nothing that no reader accepts. -/
theorem readsBack_of_decode {kind : Kind} {body : Body kind}
    (hs : element.value.length < 2 ^ 32) (h : decode kind element = .ok body) :
    Operation.ReadsBack ⟨kind, body⟩ := by
  cases kind with
  | searchRequest => exact SearchRequest.decode_encode_filter hs h
  | abandonRequest => exact (decodeAbandoned_eq_ok h).2
  | _ => trivial

end Body

/-- An operation of a kind is read from an element that has its type octet and carries it. -/
theorem decodeAs_eq_ok_iff {kind : Kind} {body : Body kind} :
    decodeAs kind element = .ok body ↔
      element.tag = kind.tag ∧ Body.decode kind element = .ok body := by
  rw [decodeAs]
  by_cases htag : element.tag = kind.tag
  · rw [if_pos htag, explain_eq_ok_iff, and_iff_right htag]
  · rw [if_neg htag]
    simp only [reduceCtorEq, htag, false_and]

namespace Operation

/-- An operation is read as what an element carries under the type octet of its kind. -/
theorem decode_eq_ok {op : Operation} (h : decode element = .ok op) :
    Body.decode op.kind element = .ok op.body := by
  rw [decode] at h
  split at h
  · cases h
  · rename_i kind _
    cases hbody : decodeAs kind element with
    | error failure =>
        rw [hbody] at h
        cases h
    | ok body =>
        rw [hbody] at h
        cases h
        exact (decodeAs_eq_ok_iff.mp hbody).2

/-- An operation fits in the room of the element that it was read from. -/
theorem fitsIn_of_decode {op : Operation} (h : decode element = .ok op) :
    op.encode.FitsIn element :=
  Body.fitsIn_of_decode (decode_eq_ok h)

/-- An operation that was read is read back. -/
theorem decode_encode_of_decode {op : Operation} (hs : element.value.length < 2 ^ 32)
    (h : decode element = .ok op) : decode op.encode = .ok op := by
  rw [decode_encode_eq_ok_iff op op (Nat.lt_of_le_of_lt (fitsIn_of_decode h) hs)]
  exact ⟨rfl, Body.readsBack_of_decode hs (decode_eq_ok h)⟩

end Operation

end DirectoryAccess
