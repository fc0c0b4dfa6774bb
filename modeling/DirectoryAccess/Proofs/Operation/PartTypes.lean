import DirectoryAccess.Operation.Basic
import DirectoryAccess.Proofs.Ber.Shortest

/-!
# Types of the parts of requests

The grammar gives each part of a request a type (`Kind.partTypes`). Where the type tells what the
part is, reading looks at it, and the table leaves it open. Any other part is read by its place
alone, so a request is read all the same when these parts are given the types of the table
(`decodeAs_eq_of_retype_eq`). What is written for a request are parts of these types, each in the
room of the part that it was read from (`Element.Rewritten`).
-/

namespace DirectoryAccess

open Ber (Element Tag isMultiOctet)

/-! ## Elements under other types -/

namespace Ber.Element

/-- Elements under the types that are listed for their places, and under their own where none is
listed. -/
def retype : List (Option UInt8) → List Element → List Element
  | [], parts => parts
  | _ :: _, [] => []
  | type? :: types, part :: parts => ⟨type?.getD part.tag, part.value⟩ :: retype types parts

/-- Elements that have the listed types already are left as they are. -/
theorem retype_eq_iff {types : List (Option UInt8)} {parts : List Element} :
    retype types parts = parts ↔ (retype types parts).map (·.tag) = parts.map (·.tag) := by
  refine ⟨congrArg _, fun h => ?_⟩
  induction types, parts using retype.induct with
  | case1 parts => rfl
  | case2 type? types => rfl
  | case3 type? types part parts ih =>
      rw [retype, List.map_cons, List.map_cons] at h
      obtain ⟨htag, h⟩ := List.cons.inj h
      rw [retype, ih h]
      exact congrArg (fun tag => Element.mk tag part.value :: parts) htag

/-- Elements that can be written can be written under listed types that take one octet. -/
theorem writable_retype {types : List (Option UInt8)} {parts : List Element}
    (ht : ∀ type? ∈ types, ∀ tag ∈ type?, isMultiOctet tag = false)
    (hp : ∀ part ∈ parts, part.Writable) : ∀ part ∈ retype types parts, part.Writable := by
  induction types, parts using retype.induct with
  | case1 parts => exact hp
  | case2 type? types => exact hp
  | case3 type? types part parts ih =>
      rw [List.forall_mem_cons] at ht hp
      rw [retype, List.forall_mem_cons]
      refine ⟨⟨?_, hp.1.length_value_lt⟩, ih ht.2 hp.2⟩
      cases type? with
      | none => exact hp.1.isMultiOctet_tag
      | some tag => exact ht.1 tag rfl

/-- An element that has the type of another and fits in its room. -/
structure Replaces (e e' : Element) : Prop where
  /-- The types are the same. -/
  tag_eq : e.tag = e'.tag
  /-- The value is no longer. -/
  fitsIn : e.FitsIn e'

/-- What replaces a part that can be written can be written. -/
theorem Replaces.writable {e e' : Element} (h : e.Replaces e') (hw : e'.Writable) : e.Writable :=
  ⟨h.tag_eq ▸ hw.isMultiOctet_tag, Nat.lt_of_le_of_lt h.fitsIn hw.length_value_lt⟩

/-- Elements have the types of those that they replace, and can be written if these can. -/
theorem map_tag_and_writable_of_replaces {es es' : List Element} (h : List.Forall₂ Replaces es es')
    (hw : ∀ e' ∈ es', e'.Writable) :
    es.map (·.tag) = es'.map (·.tag) ∧ ∀ e ∈ es, e.Writable := by
  induction h with
  | nil => exact ⟨rfl, nofun⟩
  | cons hr _ ih =>
      rw [List.forall_mem_cons] at hw ⊢
      obtain ⟨htags, hwritable⟩ := ih hw.2
      rw [List.map_cons, List.map_cons, hr.tag_eq, htags]
      exact ⟨rfl, hr.writable hw.1, hwritable⟩

/-- A sequence of elements that replace the parts of an element when these are given the listed
types. -/
inductive Rewritten (types : List (Option UInt8)) (e : Element) : Element → Prop
  /-- Each part is replaced in its place. -/
  | sequence {tag : UInt8} {parts written : List Element} (hparts : e.asElements = .ok parts)
      (hwritten : List.Forall₂ Replaces written (retype types parts)) :
      Rewritten types e (.sequence tag written)

/-- Elements fit in the room of those that they replace, whatever types these have. -/
theorem FitIn.of_replaces {types : List (Option UInt8)} {written parts : List Element}
    (h : List.Forall₂ Replaces written (retype types parts)) : FitIn written parts := by
  induction types, parts using retype.induct generalizing written with
  | case1 parts => exact .of_forall₂ (h.imp fun _ _ hr => hr.fitsIn)
  | case2 type? types =>
      cases h
      exact .nil
  | case3 type? types part parts ih =>
      rw [retype] at h
      cases h with
      | cons hr h => exact .cons hr.fitsIn (ih h)

/-- A sequence fits in the room of the element that it is rewritten from. -/
theorem Rewritten.fitsIn {types : List (Option UInt8)} {e e' : Element} (h : Rewritten types e e') :
    e'.FitsIn e := by
  cases h with
  | sequence hparts hwritten => exact .sequence hparts (.of_replaces hwritten)

/-- The parts of a sequence that is rewritten have the types that the parts which it is rewritten
from have when they are given the listed ones. -/
theorem Rewritten.exists_parts {types : List (Option UInt8)} {e e' : Element}
    (ht : ∀ type? ∈ types, ∀ tag ∈ type?, isMultiOctet tag = false) (h : Rewritten types e e') :
    ∃ parts written, e.asElements = .ok parts ∧ e'.asElements = .ok written ∧
      written.map (·.tag) = (retype types parts).map (·.tag) := by
  cases h with
  | sequence hparts hwritten =>
      obtain ⟨htags, hwritable⟩ := map_tag_and_writable_of_replaces hwritten
        (writable_retype ht (writable_of_elementsOf hparts))
      exact ⟨_, _, hparts, elementsOf_flatMap_encode hwritable, htags⟩

end Ber.Element

/-! ## The types of the grammar -/

namespace Kind

/-- The requests that are sequences of parts. -/
def compoundRequests : List Kind :=
  [bindRequest, searchRequest, modifyRequest, addRequest, modifyDnRequest, compareRequest,
    extendedRequest]

/-- The types of the parts of a compound request, but for those that reading looks at. -/
def partTypes : Kind → List (Option UInt8)
  | bindRequest => [some Tag.integer, some Tag.octetString, none]
  | searchRequest =>
    [some Tag.octetString, some Tag.enumerated, some Tag.enumerated, some Tag.integer,
      some Tag.integer, some Tag.boolean, none, some Tag.sequence]
  | modifyRequest | addRequest | compareRequest => [some Tag.octetString, some Tag.sequence]
  | modifyDnRequest => [some Tag.octetString, some Tag.octetString, some Tag.boolean, none]
  | extendedRequest => [some ExtendedRequest.oidTag, some ExtendedRequest.valueTag]
  | _ => []

/-- Each type in the table takes one octet. -/
theorem isMultiOctet_of_mem_partTypes (kind : Kind) :
    ∀ type? ∈ kind.partTypes, ∀ tag ∈ type?, isMultiOctet tag = false := by
  have hextended : isMultiOctet ExtendedRequest.oidTag = false ∧
      isMultiOctet ExtendedRequest.valueTag = false := by
    decide
  cases kind <;> simp [partTypes, hextended]

end Kind

open Ber.Element (retype)

variable {kind : Kind} {e e' : Element} {parts parts' : List Element}

/-- A compound request is read as well from parts of the types of the grammar. A reading counts the
parts first and then takes no more than their values, but for the places that the table leaves open,
and each number of parts that it tells apart is one case. -/
theorem Body.decode_eq_of_retype (hkind : kind ∈ Kind.compoundRequests)
    (h : e.asElements = .ok parts) (h' : e'.asElements = .ok (retype kind.partTypes parts)) :
    Body.decode kind e' = Body.decode kind e := by
  simp only [Kind.compoundRequests, List.mem_cons, List.not_mem_nil, or_false] at hkind
  rcases hkind with rfl | rfl | rfl | rfl | rfl | rfl | rfl
  · change BindRequest.decode e' = BindRequest.decode e
    rw [BindRequest.decode, BindRequest.decode, h, h']
    rcases parts with _ | ⟨_, _ | ⟨_, _ | ⟨_, _ | ⟨_, _⟩⟩⟩⟩ <;> rfl
  · change SearchRequest.decode e' = SearchRequest.decode e
    rw [SearchRequest.decode, SearchRequest.decode, h, h']
    rcases parts with _ | ⟨_, _ | ⟨_, _ | ⟨_, _ | ⟨_, _ | ⟨_, _ | ⟨_, _ | ⟨_, _ | ⟨_,
      _ | ⟨_, _⟩⟩⟩⟩⟩⟩⟩⟩⟩ <;> rfl
  · change ModifyRequest.decode e' = ModifyRequest.decode e
    rw [ModifyRequest.decode, ModifyRequest.decode, h, h']
    rcases parts with _ | ⟨_, _ | ⟨_, _ | ⟨_, _⟩⟩⟩ <;> rfl
  · change Entry.decode .addRequest e' = Entry.decode .addRequest e
    rw [Entry.decode, Entry.decode, h, h']
    rcases parts with _ | ⟨_, _ | ⟨_, _ | ⟨_, _⟩⟩⟩ <;> rfl
  · change ModifyDnRequest.decode e' = ModifyDnRequest.decode e
    rw [ModifyDnRequest.decode, ModifyDnRequest.decode, h, h']
    rcases parts with _ | ⟨_, _ | ⟨_, _ | ⟨_, _ | ⟨_, _ | ⟨_, _⟩⟩⟩⟩⟩ <;> rfl
  · change CompareRequest.decode e' = CompareRequest.decode e
    rw [CompareRequest.decode, CompareRequest.decode, h, h']
    rcases parts with _ | ⟨_, _ | ⟨_, _ | ⟨_, _⟩⟩⟩ <;> rfl
  · change ExtendedRequest.decode e' = ExtendedRequest.decode e
    rw [ExtendedRequest.decode, ExtendedRequest.decode, h, h']
    rcases parts with _ | ⟨_, _ | ⟨_, _ | ⟨_, _⟩⟩⟩ <;> rfl

/-- Two elements whose parts differ only in types that reading does not look at are read as the
same compound request. -/
theorem decodeAs_eq_of_retype_eq (hkind : kind ∈ Kind.compoundRequests) (htag : e'.tag = e.tag)
    (h : e.asElements = .ok parts) (h' : e'.asElements = .ok parts')
    (hretype : retype kind.partTypes parts' = retype kind.partTypes parts) :
    decodeAs kind e' = decodeAs kind e := by
  have hwritable := Ber.Element.writable_retype kind.isMultiOctet_of_mem_partTypes
    (Ber.Element.writable_of_elementsOf h)
  have hread : (Element.sequence kind.tag (retype kind.partTypes parts)).asElements =
      .ok (retype kind.partTypes parts) :=
    Ber.Element.elementsOf_flatMap_encode hwritable
  have hbody : Body.decode kind e' = Body.decode kind e := by
    rw [← Body.decode_eq_of_retype hkind h hread]
    rw [← hretype] at hread
    rw [← Body.decode_eq_of_retype hkind h' hread, hretype]
  rw [decodeAs, decodeAs, htag, hbody]

end DirectoryAccess
