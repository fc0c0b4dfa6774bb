import DirectoryAccess.Operation.Basic
import DirectoryAccess.Proofs.Ber.Element

/-!
# Responses read back

All responses begin with an outcome, whose referrals are told from what follows by
their type. What may follow is read by type too, in a fixed order, and the types of
the three lists of elements differ, so nothing is taken for something else.
-/

namespace DirectoryAccess

open Ber (Element Tag isMultiOctet)
open Ber.Element

namespace Outcome

/-- Referrals have a type of one octet. -/
@[simp] theorem isMultiOctet_referralsTag : isMultiOctet referralsTag = false := by decide

/-- The elements of an outcome have types of one octet. -/
theorem isMultiOctet_encode (outcome : Outcome) :
    ∀ t ∈ outcome.encode.map Element.tag, isMultiOctet t = false := by
  cases h : outcome.referrals.isEmpty <;> simp [encode, h]

/-- Referrals are read back from the front of the elements that follow the texts of an outcome,
unless what follows them begins with their type. -/
theorem decodeReferrals_encode {referrals : List String} {rest : List Element}
    (hrest : ∀ t ∈ (rest.map Element.tag).head?, t ≠ referralsTag)
    (hs : (Element.texts referralsTag referrals).value.length < 2 ^ 32) :
    decodeReferrals ((if referrals.isEmpty then [] else [.texts referralsTag referrals]) ++ rest) =
      .ok (referrals, rest) := by
  cases referrals with
  | nil =>
      cases rest with
      | nil => rfl
      | cons element rest =>
          have hne : element.tag ≠ referralsTag := hrest element.tag rfl
          simp only [List.isEmpty_nil, if_true, List.nil_append, decodeReferrals, if_neg hne,
            pure_eq_ok]
  | cons url urls =>
      have htag : (Element.texts referralsTag (url :: urls)).tag = referralsTag := rfl
      simp only [List.isEmpty_cons, Bool.false_eq_true, if_false, List.cons_append,
        List.nil_append, decodeReferrals, if_pos htag, asTexts_texts hs, explain_ok, ok_bind,
        pure_eq_ok]

/-- An outcome is read back from the front of a response's elements, and what follows it stays. -/
theorem decode_encode_append {outcome : Outcome} {rest : List Element}
    (hrest : ∀ t ∈ (rest.map Element.tag).head?, t ≠ referralsTag)
    (hs : (Element.texts referralsTag outcome.referrals).value.length < 2 ^ 32) :
    decode (outcome.encode ++ rest) = .ok (outcome, rest) := by
  simp only [encode, List.cons_append, List.nil_append, decode, asInt32_integer,
    asText_text, explain_ok, ok_bind, decodeReferrals_encode hrest hs, pure_eq_ok]

/-- The referrals of a response are shorter than the response. -/
theorem length_referrals_lt {tag : UInt8} {outcome : Outcome} {rest : List Element}
    (hs : (Element.sequence tag (outcome.encode ++ rest)).value.length < 2 ^ 32) :
    (Element.texts referralsTag outcome.referrals).value.length < 2 ^ 32 := by
  by_cases h : outcome.referrals.isEmpty
  · rw [List.isEmpty_iff.mp h]
    exact Nat.two_pow_pos 32
  · refine length_value_lt_of_mem ?_ hs
    simp [encode, h]

end Outcome

/-- The elements of a response are read back as its outcome and as what follows it, where that
has types of one octet and does not begin with the type of referrals. -/
theorem parts_of_response {tag : UInt8} {outcome : Outcome} {rest : List Element}
    (hrest : ∀ t ∈ rest.map Element.tag, isMultiOctet t = false ∧ t ≠ Outcome.referralsTag)
    (hs : (Element.sequence tag (outcome.encode ++ rest)).value.length < 2 ^ 32) :
    ((Element.sequence tag (outcome.encode ++ rest)).asElements >>= Outcome.decode) =
      .ok (outcome, rest) := by
  have hparts : (Element.sequence tag (outcome.encode ++ rest)).asElements =
      .ok (outcome.encode ++ rest) := by
    refine asElements_sequence ?_ hs
    intro t ht
    rw [List.map_append, List.mem_append] at ht
    rcases ht with ht | ht
    · exact outcome.isMultiOctet_encode t ht
    · exact (hrest t ht).1
  rw [hparts, ok_bind]
  exact Outcome.decode_encode_append
    (fun t ht => (hrest t (List.mem_of_mem_head? ht)).2) (Outcome.length_referrals_lt hs)

/-- A response that is only an outcome is read back from its element. -/
theorem decodeOutcome_encodeOutcome {kind : Kind} {outcome : Outcome}
    (hs : (encodeOutcome kind outcome).value.length < 2 ^ 32) :
    decodeOutcome (encodeOutcome kind outcome) = .ok outcome := by
  rw [encodeOutcome, ← List.append_nil outcome.encode] at hs ⊢
  have hparts := parts_of_response (fun t ht => absurd ht List.not_mem_nil) hs
  obtain ⟨parts, helements, hdecode⟩ := bind_eq_ok_iff.mp hparts
  simp only [decodeOutcome, helements, explain_ok, ok_bind, hdecode, pure_eq_ok]

/-- A challenge is taken into a response that has none. -/
theorem BindResponse.withParts_encode (outcome : Outcome) (challenge : Option Octets) :
    withParts ⟨outcome, none⟩ (challenge.toList.map (Element.mk challengeTag)) =
      .ok ⟨outcome, challenge⟩ := by
  cases challenge <;> rfl

/-- A response to a request to bind is read back from its element. -/
theorem BindResponse.decode_encode {response : BindResponse}
    (hs : response.encode.value.length < 2 ^ 32) : decode response.encode = .ok response := by
  have htags : ∀ t ∈ (response.challenge.toList.map (Element.mk challengeTag)).map Element.tag,
      isMultiOctet t = false ∧ t ≠ Outcome.referralsTag := by
    intro t ht
    rw [List.map_map, List.mem_map] at ht
    obtain ⟨value, -, rfl⟩ := ht
    exact (by decide : isMultiOctet challengeTag = false ∧ challengeTag ≠ Outcome.referralsTag)
  obtain ⟨parts, helements, hdecode⟩ := bind_eq_ok_iff.mp (parts_of_response htags hs)
  rw [decode, encode, helements, ok_bind, hdecode, ok_bind]
  exact withParts_encode response.outcome response.challenge

/-- The name and the value of a response have the two types that are given for them. -/
theorem NamedValue.tag_of_mem_encode {oidTag valueTag t : UInt8} {named : NamedValue}
    (ht : t ∈ (named.encode oidTag valueTag).map Element.tag) : t = oidTag ∨ t = valueTag := by
  rw [encode, List.map_append, List.mem_append, List.map_map, List.map_map, List.mem_map,
    List.mem_map] at ht
  rcases ht with ⟨oid, -, rfl⟩ | ⟨value, -, rfl⟩
  · exact Or.inl rfl
  · exact Or.inr rfl

/-- The name and the value of a response are told apart by their types. -/
theorem NamedValue.withParts_encode {kind : Kind} {oidTag valueTag : UInt8} {named : NamedValue}
    (h : valueTag ≠ oidTag) :
    withParts kind oidTag valueTag ⟨none, none⟩ (named.encode oidTag valueTag) = .ok named := by
  obtain ⟨oid, value⟩ := named
  cases oid <;> cases value <;> simp [encode, withParts, h, text_tag]

/-- A response to an extended request is read back from its element. -/
theorem ExtendedResponse.decode_encode {response : ExtendedResponse}
    (hs : response.encode.value.length < 2 ^ 32) : decode response.encode = .ok response := by
  have htags : ∀ t ∈ (response.named.encode oidTag valueTag).map Element.tag,
      isMultiOctet t = false ∧ t ≠ Outcome.referralsTag := by
    intro t ht
    rcases NamedValue.tag_of_mem_encode ht with rfl | rfl <;> decide
  obtain ⟨parts, helements, hdecode⟩ := bind_eq_ok_iff.mp (parts_of_response htags hs)
  have hnamed : NamedValue.withParts .extendedResponse oidTag valueTag ⟨none, none⟩
      (response.named.encode oidTag valueTag) = .ok response.named :=
    NamedValue.withParts_encode (by decide)
  rw [decode, encode, helements, ok_bind, hdecode, ok_bind]
  exact bind_eq_ok_iff.mpr ⟨response.named, hnamed, rfl⟩

/-- A response that is not the last one is read back from its element. -/
theorem IntermediateResponse.decode_encode {named : NamedValue}
    (hs : (encode named).value.length < 2 ^ 32) : decode (encode named) = .ok named := by
  have htags : ∀ t ∈ (named.encode oidTag valueTag).map Element.tag, isMultiOctet t = false := by
    intro t ht
    rcases NamedValue.tag_of_mem_encode ht with rfl | rfl <;> decide
  rw [decode, encode, asElements_sequence htags hs, ok_bind]
  exact NamedValue.withParts_encode (by decide)

end DirectoryAccess
