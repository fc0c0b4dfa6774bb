import DirectoryAccess.Proofs.Operation.Shortest

/-!
# Requests with parts of other types

Whatever an element is, a compound request that is read from it is written with as many parts,
under the types of the grammar. These are the types of the parts that it was read from exactly if
those have the types of the grammar too, which reading makes sure of only where it looks at the
type: at the credentials, at the filter and at the new superior. At every other place the same
request is read from a part of any type (`decodeAs_partTypes`).
-/

namespace DirectoryAccess

open Ber (Element)
open Ber.Element (Rewritten retype)

/-- A compound request is written as a rewritten form of the element that it was read from. -/
theorem Body.rewritten_of_decode {kind : Kind} {body : Body kind} {e : Element}
    (hkind : kind ∈ Kind.compoundRequests) (h : decode kind e = .ok body) :
    Rewritten kind.partTypes e (encode kind body) := by
  simp only [Kind.compoundRequests, List.mem_cons, List.not_mem_nil, or_false] at hkind
  rcases hkind with rfl | rfl | rfl | rfl | rfl | rfl | rfl
  · exact BindRequest.rewritten_of_decode h
  · exact (SearchRequest.rewritten_and_readable_of_decode h).1
  · exact ModifyRequest.rewritten_of_decode h
  · exact Entry.rewritten_of_decode h
  · exact ModifyDnRequest.rewritten_of_decode h
  · exact CompareRequest.rewritten_of_decode h
  · exact ExtendedRequest.rewritten_of_decode h

/-- **Types of the parts of a request.** A compound request that is read from an element is written
as an element whose parts are, in number and type, those that it was read from, but under the types
of the grammar where reading does not look at the type. So the types are the same exactly if the
parts had those of the grammar at these places. If they had not, nothing is refused: the same
request is read from any element whose parts differ from these only in such types. -/
theorem decodeAs_partTypes {kind : Kind} {e : Element} {body : Body kind}
    (hkind : kind ∈ Kind.compoundRequests) (h : decodeAs kind e = .ok body) :
    ∃ parts written, e.asElements = .ok parts ∧ (Body.encode kind body).asElements = .ok written ∧
      written.map (·.tag) = (retype kind.partTypes parts).map (·.tag) ∧
      (parts.map (·.tag) = written.map (·.tag) ↔ retype kind.partTypes parts = parts) ∧
      ∀ (e' : Element) (parts' : List Element), e'.tag = e.tag → e'.asElements = .ok parts' →
        retype kind.partTypes parts' = retype kind.partTypes parts →
          decodeAs kind e' = .ok body := by
  have hbody := (decodeAs_eq_ok_iff.mp h).2
  obtain ⟨parts, written, hparts, hwritten, htags⟩ :=
    (Body.rewritten_of_decode hkind hbody).exists_parts kind.isMultiOctet_of_mem_partTypes
  refine ⟨parts, written, hparts, hwritten, htags, ?_, ?_⟩
  · rw [htags, eq_comm]
    exact Ber.Element.retype_eq_iff.symm
  · intro e' parts' htag hparts' hretype
    rw [decodeAs_eq_of_retype_eq hkind htag hparts hparts' hretype]
    exact h

/-- A request to bind without a name and a password, whose version is under the given type. -/
def anonymousBind (tag : UInt8) : Element :=
  .sequence Kind.bindRequest.tag [⟨tag, [0x03]⟩, ⟨0x04, []⟩, ⟨0x80, []⟩]

/-- The parts of an anonymous request are its version, its name and its credentials. -/
theorem asElements_anonymousBind {tag : UInt8} (ht : Ber.isMultiOctet tag = false) :
    (anonymousBind tag).asElements = .ok [⟨tag, [0x03]⟩, ⟨0x04, []⟩, ⟨0x80, []⟩] := by
  have hone : Ber.isMultiOctet 0x04 = false ∧ Ber.isMultiOctet 0x80 = false := by decide
  have hs : (anonymousBind tag).value.length < 2 ^ 32 := by
    change 7 < 2 ^ 32
    decide
  exact Ber.Element.asElements_sequence (by simp [ht, hone]) hs

/-- A version is read alike under the type of integers and under another one. -/
theorem decodeAs_partTypes_anonymousBind :
    Kind.bindRequest ∈ Kind.compoundRequests ∧
      decodeAs .bindRequest (anonymousBind 0x02) = .ok ⟨3, "", .simple []⟩ ∧
      decodeAs .bindRequest (anonymousBind 0x04) = .ok ⟨3, "", .simple []⟩ := by
  have hkind : Kind.bindRequest ∈ Kind.compoundRequests := by decide
  have hdecode : decodeAs .bindRequest (anonymousBind 0x02) = .ok ⟨3, "", .simple []⟩ := by
    decide +kernel
  obtain ⟨parts, written, hparts, -, -, -, hother⟩ := decodeAs_partTypes hkind hdecode
  rw [asElements_anonymousBind (by decide)] at hparts
  obtain rfl := Except.ok.inj hparts
  exact ⟨hkind, hdecode, hother _ _ rfl (asElements_anonymousBind (by decide)) rfl⟩

/-- A request can be read from parts of other types than those that it is written with. -/
theorem decodeAs_mistyped :
    ¬ ∀ (kind : Kind) (e : Element) (body : Body kind), kind ∈ Kind.compoundRequests →
      decodeAs kind e = .ok body →
        e.asElements.map (·.map (·.tag)) =
          (Body.encode kind body).asElements.map (·.map (·.tag)) := by
  intro h
  have hdecode : decodeAs .bindRequest (anonymousBind 0x04) = .ok ⟨3, "", .simple []⟩ := by
    decide +kernel
  have hwritten : (Body.encode .bindRequest ⟨3, "", .simple []⟩).asElements =
      .ok [⟨0x02, [0x03]⟩, ⟨0x04, []⟩, ⟨0x80, []⟩] := by
    decide +kernel
  have htypes := h .bindRequest _ _ (by decide) hdecode
  rw [asElements_anonymousBind (by decide), hwritten] at htypes
  exact absurd (Except.ok.inj htypes) (by decide)

end DirectoryAccess
