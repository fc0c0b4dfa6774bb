import DirectoryAccess.Operation.Basic
import DirectoryAccess.Proofs.Checked.Filter
import DirectoryAccess.Proofs.Checked.Parts

/-!
# Operations with every bound checked

What an operation carries is a sequence of parts for most kinds. Where their number
is right, each of them is there at the place at which it is looked for
(`Body.decodeChecked_eq`); the parts behind an outcome begin where it ends. So no
operation is taken from an element by a look behind its last part.
-/

namespace DirectoryAccess

open Ber (Element showTag)

/-! ## Binding and abandoning -/

namespace Credentials

/-- The mechanism and what it needs first, from the elements of these. -/
def decodeSaslChecked (parts : List Element) : Checking Credentials :=
  if parts.isEmpty ∨ 2 < parts.length then
    Checking.fail (.elementCount "SASL credentials" "1 or 2" parts.length)
  else do
    let mechanism ← Checking.explain "cannot decode the SASL mechanism"
      (Checking.view Element.asText parts 0)
    return .sasl mechanism (parts[1]?.map (·.value))

/-- Credentials of a mechanism are read off their parts without a look beyond them. -/
theorem decodeSaslChecked_eq (parts : List Element) :
    decodeSaslChecked parts = Checking.ofExcept (decodeSasl parts) := by
  rcases parts with _ | ⟨mechanism, _ | ⟨initial, _ | ⟨part, parts⟩⟩⟩
  · rfl
  · exact Checking.bind_eq (Checking.explain_eq _ rfl) fun mechanism _ => rfl
  · exact Checking.bind_eq (Checking.explain_eq _ rfl) fun mechanism _ => rfl
  · exact if_pos (.inr (by simp only [List.length_cons]; omega))

/-- The credentials that an element is. -/
def decodeChecked (element : Element) : Checking Credentials :=
  if element.tag = simpleTag then Checking.ofExcept (.ok (.simple element.value))
  else if element.tag = saslTag then do
    let parts ← Checking.explain "cannot decode the SASL credentials" element.asElementsChecked
    decodeSaslChecked parts
  else Checking.fail (.malformed s!"unsupported authentication type {showTag element.tag}")

/-- Credentials are read off an element without a look beyond its parts. -/
theorem decodeChecked_eq (e : Element) : decodeChecked e = Checking.ofExcept (decode e) := by
  rw [decodeChecked, decode]
  split
  · rfl
  split
  · exact Checking.bind_eq (Checking.explain_eq _ e.asElementsChecked_eq) fun parts _ =>
      decodeSaslChecked_eq parts
  · rfl

end Credentials

namespace BindRequest

/-- The request that an element is. -/
def decodeChecked (element : Element) : Checking BindRequest := do
  let parts ← element.asElementsChecked
  if parts.length ≠ 3 then
    Checking.fail (.elementCount "bind request" "3" parts.length)
  else
    let version ← Checking.explain "cannot decode the protocol version"
      (Checking.part parts 0 >>= Element.asInt32Checked)
    let dn ← Checking.explain "cannot decode the bind DN" (Checking.view Element.asText parts 1)
    let credentials ← Checking.part parts 2 >>= Credentials.decodeChecked
    return ⟨version, dn, credentials⟩

/-- A request to bind is read off an element without a look beyond its three parts. -/
theorem decodeChecked_eq (e : Element) : decodeChecked e = Checking.ofExcept (decode e) := by
  refine Checking.bind_eq e.asElementsChecked_eq fun parts _ => ?_
  rcases parts with _ | ⟨version, _ | ⟨dn, _ | ⟨credentials, _ | ⟨part, parts⟩⟩⟩⟩
  · rfl
  · rfl
  · rfl
  · refine Checking.bind_eq (Checking.explain_eq _ version.asInt32Checked_eq) fun version _ => ?_
    refine Checking.bind_eq (Checking.explain_eq _ rfl) fun dn _ => ?_
    exact Checking.bind_eq (Credentials.decodeChecked_eq credentials) fun credentials _ => rfl
  · rfl

end BindRequest

namespace BindResponse

/-- The response that an element is. -/
def decodeChecked (element : Element) : Checking BindResponse := do
  let parts ← element.asElementsChecked
  let (outcome, parts) ← Outcome.decodeChecked parts
  Checking.ofExcept (withParts ⟨outcome, none⟩ parts)

/-- A response to a request to bind is read off an element without a look beyond its parts. -/
theorem decodeChecked_eq (e : Element) : decodeChecked e = Checking.ofExcept (decode e) := by
  refine Checking.bind_eq e.asElementsChecked_eq fun parts _ => ?_
  exact Checking.bind_eq (Outcome.decodeChecked_eq parts) fun found _ => rfl

end BindResponse

/-- The number of the operation that a request to abandon one names, which is not negative. -/
def decodeAbandonedChecked (element : Element) : Checking Int32 := do
  let id ← element.asInt32Checked
  if id < 0 then
    Checking.fail (.malformed s!"message ID to abandon must not be negative, got {id}")
  else return id

/-- A request to abandon an operation is read off an element without a look beyond its value. -/
theorem decodeAbandonedChecked_eq (e : Element) :
    decodeAbandonedChecked e = Checking.ofExcept (decodeAbandoned e) := by
  refine Checking.bind_eq e.asInt32Checked_eq fun id _ => ?_
  by_cases hid : id < 0
  · rw [if_pos hid, if_pos hid]
    rfl
  · rw [if_neg hid, if_neg hid]
    rfl

/-! ## Searching -/

namespace SearchRequest

/-- The request that an element is. -/
def decodeChecked (element : Element) : Checking SearchRequest := do
  let parts ← element.asElementsChecked
  if parts.length ≠ 8 then
    Checking.fail (.elementCount "search request" "8" parts.length)
  else
    let base ← Checking.explain "cannot decode the base DN" (Checking.view Element.asText parts 0)
    let scope ← Checking.explain "cannot decode the search scope"
      (Checking.part parts 1 >>= Element.asChoiceChecked SearchScope.ofCode)
    let dereferencing ← Checking.explain "cannot decode the dereference policy"
      (Checking.part parts 2 >>= Element.asChoiceChecked Dereferencing.ofCode)
    let sizeLimit ← Checking.explain "cannot decode the size limit"
      (Checking.part parts 3 >>= Element.asInt32Checked)
    let timeLimit ← Checking.explain "cannot decode the time limit"
      (Checking.part parts 4 >>= Element.asInt32Checked)
    let typesOnly ← Checking.explain "cannot decode the typesOnly flag"
      (Checking.view Element.asBool parts 5)
    let filter ← Checking.explain "cannot decode the search filter"
      (Checking.part parts 6 >>= Filter.decodeChecked)
    let attributes ← Checking.explain "cannot decode the requested attributes"
      (Checking.part parts 7 >>= Element.asTextsChecked)
    return ⟨base, scope, dereferencing, .ofInt32 sizeLimit, .ofInt32 timeLimit, typesOnly, filter,
      attributes⟩

/-- A request to search is read off an element without a look beyond its eight parts; any other
number of parts is refused on both sides. -/
theorem decodeChecked_eq (e : Element) : decodeChecked e = Checking.ofExcept (decode e) := by
  refine Checking.bind_eq e.asElementsChecked_eq fun parts _ => ?_
  rcases parts with _ | ⟨base, _ | ⟨scope, _ | ⟨dereferencing, _ | ⟨sizeLimit, _ | ⟨timeLimit,
    _ | ⟨typesOnly, _ | ⟨filter, _ | ⟨attributes, _ | ⟨part, parts⟩⟩⟩⟩⟩⟩⟩⟩⟩
  rotate_left 8
  · refine Checking.bind_eq (Checking.explain_eq _ rfl) fun base _ => ?_
    refine Checking.bind_eq (Checking.explain_eq _ (scope.asChoiceChecked_eq _)) fun _ _ => ?_
    refine Checking.bind_eq (Checking.explain_eq _ (dereferencing.asChoiceChecked_eq _))
      fun _ _ => ?_
    refine Checking.bind_eq (Checking.explain_eq _ sizeLimit.asInt32Checked_eq) fun _ _ => ?_
    refine Checking.bind_eq (Checking.explain_eq _ timeLimit.asInt32Checked_eq) fun _ _ => ?_
    refine Checking.bind_eq (Checking.explain_eq _ rfl) fun typesOnly _ => ?_
    refine Checking.bind_eq (Checking.explain_eq _ (Filter.decodeChecked_eq filter)) fun _ _ => ?_
    exact Checking.bind_eq (Checking.explain_eq _ attributes.asTextsChecked_eq) fun _ _ => rfl
  all_goals rfl

end SearchRequest

/-! ## Entries -/

/-- The entry that an element of the kind is. -/
def Entry.decodeChecked (kind : Kind) (element : Element) : Checking Entry := do
  let parts ← element.asElementsChecked
  if parts.length ≠ 2 then
    Checking.fail (.elementCount kind.name "2" parts.length)
  else
    let dn ← Checking.explain "cannot decode the entry DN" (Checking.view Element.asText parts 0)
    let attributes ← Checking.part parts 1 >>= Attribute.decodeListChecked
    return ⟨dn, attributes⟩

/-- An entry is read off an element without a look beyond its two parts. -/
theorem Entry.decodeChecked_eq (kind : Kind) (e : Element) :
    decodeChecked kind e = Checking.ofExcept (decode kind e) := by
  refine Checking.bind_eq e.asElementsChecked_eq fun parts _ => ?_
  rcases parts with _ | ⟨dn, _ | ⟨attributes, _ | ⟨part, parts⟩⟩⟩
  · rfl
  · rfl
  · refine Checking.bind_eq (Checking.explain_eq _ rfl) fun dn _ => ?_
    exact Checking.bind_eq (Attribute.decodeListChecked_eq attributes) fun attributes _ => rfl
  · rfl

/-- The request that an element is. -/
def ModifyRequest.decodeChecked (element : Element) : Checking ModifyRequest := do
  let parts ← element.asElementsChecked
  if parts.length ≠ 2 then
    Checking.fail (.elementCount "modify request" "2" parts.length)
  else
    let dn ← Checking.explain "cannot decode the target DN" (Checking.view Element.asText parts 0)
    let changes ← Checking.explain "cannot decode the list of changes"
      (Checking.part parts 1 >>= Element.asElementsChecked)
    return ⟨dn, ← changes.mapM Modification.decodeChecked⟩

/-- A request to modify an entry is read off an element without a look beyond its two parts. -/
theorem ModifyRequest.decodeChecked_eq (e : Element) :
    decodeChecked e = Checking.ofExcept (decode e) := by
  refine Checking.bind_eq e.asElementsChecked_eq fun parts _ => ?_
  rcases parts with _ | ⟨dn, _ | ⟨changes, _ | ⟨part, parts⟩⟩⟩
  · rfl
  · rfl
  · refine Checking.bind_eq (Checking.explain_eq _ rfl) fun dn _ => ?_
    refine Checking.bind_eq (Checking.explain_eq _ changes.asElementsChecked_eq) fun parts _ => ?_
    exact Checking.bind_eq (Checking.mapM_eq Modification.decodeChecked_eq parts) fun _ _ => rfl
  · rfl

namespace ModifyDnRequest

/-- The request that an element is. -/
def decodeChecked (element : Element) : Checking ModifyDnRequest := do
  let parts ← element.asElementsChecked
  if parts.length ≠ 3 ∧ parts.length ≠ 4 then
    Checking.fail (.elementCount "modify DN request" "3 or 4" parts.length)
  else
    let dn ← Checking.explain "cannot decode the entry DN" (Checking.view Element.asText parts 0)
    let newRdn ← Checking.explain "cannot decode the new RDN"
      (Checking.view Element.asText parts 1)
    let deleteOldRdn ← Checking.explain "cannot decode the deleteOldRDN flag"
      (Checking.view Element.asBool parts 2)
    let superior ← Checking.ofExcept (decodeSuperior parts[3]?.toList)
    return ⟨dn, newRdn, deleteOldRdn, superior⟩

/-- A request to rename an entry is read off an element without a look beyond its three or four
parts. -/
theorem decodeChecked_eq (e : Element) : decodeChecked e = Checking.ofExcept (decode e) := by
  refine Checking.bind_eq e.asElementsChecked_eq fun parts _ => ?_
  rcases parts with _ | ⟨dn, _ | ⟨newRdn, _ | ⟨flag, _ | ⟨superior, _ | ⟨part, parts⟩⟩⟩⟩⟩
  · rfl
  · rfl
  · rfl
  · refine Checking.bind_eq (Checking.explain_eq _ rfl) fun dn _ => ?_
    refine Checking.bind_eq (Checking.explain_eq _ rfl) fun newRdn _ => ?_
    refine Checking.bind_eq (Checking.explain_eq _ rfl) fun flag _ => ?_
    exact Checking.bind_eq rfl fun superior _ => rfl
  · refine Checking.bind_eq (Checking.explain_eq _ rfl) fun dn _ => ?_
    refine Checking.bind_eq (Checking.explain_eq _ rfl) fun newRdn _ => ?_
    refine Checking.bind_eq (Checking.explain_eq _ rfl) fun flag _ => ?_
    exact Checking.bind_eq rfl fun superior _ => rfl
  · rw [if_pos (by simp only [List.length_cons]; omega)]
    simp only [List.length_cons]
    rw [if_pos (by omega)]
    rfl

end ModifyDnRequest

namespace CompareRequest

/-- The attribute and the value that an element asserts. -/
def decodeAssertionChecked (element : Element) : Checking (String × Octets) := do
  let parts ← Checking.explain "cannot decode the attribute value assertion"
    element.asElementsChecked
  if parts.length ≠ 2 then
    Checking.fail (.elementCount "attribute value assertion" "2" parts.length)
  else
    let description ← Checking.explain "cannot decode the assertion attribute"
      (Checking.view Element.asText parts 0)
    let value ← Checking.part parts 1
    return (description, value.value)

/-- An asserted value is read off an element without a look beyond its two parts. -/
theorem decodeAssertionChecked_eq (e : Element) :
    decodeAssertionChecked e = Checking.ofExcept (decodeAssertion e) := by
  refine Checking.bind_eq (Checking.explain_eq _ e.asElementsChecked_eq) fun parts _ => ?_
  rcases parts with _ | ⟨description, _ | ⟨value, _ | ⟨part, parts⟩⟩⟩
  · rfl
  · rfl
  · exact Checking.bind_eq (Checking.explain_eq _ rfl) fun description _ => rfl
  · rfl

/-- The request that an element is. -/
def decodeChecked (element : Element) : Checking CompareRequest := do
  let parts ← element.asElementsChecked
  if parts.length ≠ 2 then
    Checking.fail (.elementCount "compare request" "2" parts.length)
  else
    let dn ← Checking.explain "cannot decode the entry DN" (Checking.view Element.asText parts 0)
    let (description, value) ← Checking.part parts 1 >>= decodeAssertionChecked
    return ⟨dn, description, value⟩

/-- A request to compare is read off an element without a look beyond its two parts. -/
theorem decodeChecked_eq (e : Element) : decodeChecked e = Checking.ofExcept (decode e) := by
  refine Checking.bind_eq e.asElementsChecked_eq fun parts _ => ?_
  rcases parts with _ | ⟨dn, _ | ⟨assertion, _ | ⟨part, parts⟩⟩⟩
  · rfl
  · rfl
  · refine Checking.bind_eq (Checking.explain_eq _ rfl) fun dn _ => ?_
    exact Checking.bind_eq (decodeAssertionChecked_eq assertion) fun assertion _ => rfl
  · rfl

end CompareRequest

/-! ## Extended operations -/

/-- The request that an element is. -/
def ExtendedRequest.decodeChecked (element : Element) : Checking ExtendedRequest := do
  let parts ← element.asElementsChecked
  match parts with
  | [oid] => return ⟨← Checking.ofExcept (decodeOid oid), none⟩
  | [oid, value] => return ⟨← Checking.ofExcept (decodeOid oid), some value.value⟩
  | parts => Checking.fail (.elementCount "extended request" "1 or 2" parts.length)

/-- An extended request is read off an element without a look beyond its one or two parts. -/
theorem ExtendedRequest.decodeChecked_eq (e : Element) :
    decodeChecked e = Checking.ofExcept (decode e) := by
  refine Checking.bind_eq e.asElementsChecked_eq fun parts _ => ?_
  rcases parts with _ | ⟨oid, _ | ⟨value, _ | ⟨part, parts⟩⟩⟩
  · rfl
  · exact Checking.bind_eq rfl fun oid _ => rfl
  · exact Checking.bind_eq rfl fun oid _ => rfl
  · rfl

/-- The response that an element is. -/
def ExtendedResponse.decodeChecked (element : Element) : Checking ExtendedResponse := do
  let parts ← element.asElementsChecked
  let (outcome, parts) ← Outcome.decodeChecked parts
  let named ← Checking.ofExcept
    (NamedValue.withParts .extendedResponse oidTag valueTag ⟨none, none⟩ parts)
  return ⟨outcome, named⟩

/-- An extended response is read off an element without a look beyond its parts. -/
theorem ExtendedResponse.decodeChecked_eq (e : Element) :
    decodeChecked e = Checking.ofExcept (decode e) := by
  refine Checking.bind_eq e.asElementsChecked_eq fun parts _ => ?_
  refine Checking.bind_eq (Outcome.decodeChecked_eq parts) fun found _ => ?_
  exact Checking.bind_eq rfl fun named _ => rfl

/-- The response that an element is. -/
def IntermediateResponse.decodeChecked (element : Element) : Checking NamedValue := do
  let parts ← element.asElementsChecked
  Checking.ofExcept
    (NamedValue.withParts .intermediateResponse oidTag valueTag ⟨none, none⟩ parts)

/-- An intermediate response is read off an element without a look beyond its parts. -/
theorem IntermediateResponse.decodeChecked_eq (e : Element) :
    decodeChecked e = Checking.ofExcept (decode e) :=
  Checking.bind_eq e.asElementsChecked_eq fun _ _ => rfl

/-! ## Operations of any kind -/

/-- The outcome that is all that a response holds. -/
def decodeOutcomeChecked (element : Element) : Checking Outcome := do
  let parts ← Checking.explain "response is not a valid sequence" element.asElementsChecked
  let (outcome, count) ← Outcome.scanChecked parts
  if count ≠ parts.length then
    let part ← Checking.part parts count
    Checking.fail
      (.malformed s!"unexpected element type {showTag part.tag} after the result components")
  else return outcome

/-- An outcome is read off an element, behind which nothing may be left; that place is looked at
only where it is one of the parts. -/
theorem decodeOutcomeChecked_eq (e : Element) :
    decodeOutcomeChecked e = Checking.ofExcept (decodeOutcome e) := by
  refine Checking.bind_eq (Checking.explain_eq _ e.asElementsChecked_eq) fun parts _ => ?_
  rw [Outcome.scanChecked_eq]
  cases h : Outcome.decode parts with
  | error failure => rfl
  | ok found =>
      obtain ⟨outcome, rest⟩ := found
      have hsuffix := Outcome.suffix_of_decode h
      have hrest := List.suffix_iff_eq_drop.mp hsuffix
      simp only [ok_bind, Checking.ofExcept_ok_bind]
      cases rest with
      | nil =>
          rw [List.length_nil, Nat.sub_zero, if_neg (not_not_intro rfl)]
          rfl
      | cons part rest =>
          have hlength := hsuffix.length_le
          have hshort : parts.length - (part :: rest).length ≠ parts.length := by
            rw [List.length_cons] at hlength ⊢
            omega
          rw [if_pos hshort, Checking.part_eq hrest.symm]
          rfl

namespace Body

/-- What an element of the right type carries, whatever its type octet says. -/
def decodeChecked : (kind : Kind) → Element → Checking (Body kind)
  | .bindRequest, element => BindRequest.decodeChecked element
  | .bindResponse, element => BindResponse.decodeChecked element
  | .unbindRequest, element => Checking.ofExcept element.asNull
  | .searchRequest, element => SearchRequest.decodeChecked element
  | .searchResultEntry, element => Entry.decodeChecked .searchResultEntry element
  | .searchResultDone, element => decodeOutcomeChecked element
  | .searchResultReference, element =>
    Checking.explain "cannot decode the referral URLs" element.asTextsChecked
  | .modifyRequest, element => ModifyRequest.decodeChecked element
  | .modifyResponse, element => decodeOutcomeChecked element
  | .addRequest, element => Entry.decodeChecked .addRequest element
  | .addResponse, element => decodeOutcomeChecked element
  | .deleteRequest, element => Checking.ofExcept element.asText
  | .deleteResponse, element => decodeOutcomeChecked element
  | .modifyDnRequest, element => ModifyDnRequest.decodeChecked element
  | .modifyDnResponse, element => decodeOutcomeChecked element
  | .compareRequest, element => CompareRequest.decodeChecked element
  | .compareResponse, element => decodeOutcomeChecked element
  | .abandonRequest, element => decodeAbandonedChecked element
  | .extendedRequest, element => ExtendedRequest.decodeChecked element
  | .extendedResponse, element => ExtendedResponse.decodeChecked element
  | .intermediateResponse, element => IntermediateResponse.decodeChecked element

/-- Whatever an element holds, it is taken for what operations of a kind carry within bounds. -/
theorem decodeChecked_eq (kind : Kind) (e : Element) :
    decodeChecked kind e = Checking.ofExcept (decode kind e) := by
  cases kind with
  | bindRequest => exact BindRequest.decodeChecked_eq e
  | bindResponse => exact BindResponse.decodeChecked_eq e
  | unbindRequest => rfl
  | searchRequest => exact SearchRequest.decodeChecked_eq e
  | searchResultEntry => exact Entry.decodeChecked_eq .searchResultEntry e
  | searchResultReference => exact Checking.explain_eq _ e.asTextsChecked_eq
  | modifyRequest => exact ModifyRequest.decodeChecked_eq e
  | addRequest => exact Entry.decodeChecked_eq .addRequest e
  | deleteRequest => rfl
  | modifyDnRequest => exact ModifyDnRequest.decodeChecked_eq e
  | compareRequest => exact CompareRequest.decodeChecked_eq e
  | abandonRequest => exact decodeAbandonedChecked_eq e
  | extendedRequest => exact ExtendedRequest.decodeChecked_eq e
  | extendedResponse => exact ExtendedResponse.decodeChecked_eq e
  | intermediateResponse => exact IntermediateResponse.decodeChecked_eq e
  | searchResultDone | modifyResponse | addResponse | deleteResponse | modifyDnResponse
  | compareResponse => exact decodeOutcomeChecked_eq e

end Body

/-- What an element carries as an operation of the given kind, whose type octet it must have. -/
def decodeAsChecked (kind : Kind) (element : Element) : Checking (Body kind) :=
  if element.tag = kind.tag then
    Checking.explain s!"cannot decode {kind.name}" (Body.decodeChecked kind element)
  else
    let types := s!"expected BER type {showTag kind.tag}, got {showTag element.tag}"
    Checking.fail (.malformed s!"cannot decode {kind.name}: {types}")

/-- An operation of a known kind is read off an element without a look beyond its parts. -/
theorem decodeAsChecked_eq (kind : Kind) (e : Element) :
    decodeAsChecked kind e = Checking.ofExcept (decodeAs kind e) := by
  rw [decodeAsChecked, decodeAs]
  split
  · exact Checking.explain_eq _ (Body.decodeChecked_eq kind e)
  · rfl

namespace Operation

/-- The operation that an element is. -/
def decodeChecked (element : Element) : Checking Operation :=
  match Kind.ofTag? element.tag with
  | none => Checking.fail (unknownType element.tag)
  | some kind => Operation.mk kind <$> decodeAsChecked kind element

/-- An operation is read off an element without a look beyond its parts, whatever kind its type
stands for. -/
theorem decodeChecked_eq (e : Element) : decodeChecked e = Checking.ofExcept (decode e) := by
  rw [decodeChecked, decode]
  cases Kind.ofTag? e.tag with
  | none => rfl
  | some kind =>
      simp only [decodeAsChecked_eq]
      cases decodeAs kind e <;> rfl

/-- The operation that some octets are, with nothing behind it. -/
def ofOctetsChecked (octets : Octets) : Checking Operation := do
  let element ← Checking.explain "cannot read the protocol operation element"
    (Element.decodeChecked octets)
  decodeChecked element

/-- An operation is read off octets without a look beyond them. -/
theorem ofOctetsChecked_eq (octets : Octets) :
    ofOctetsChecked octets = Checking.ofExcept (ofOctets octets) :=
  Checking.bind_eq (Checking.explain_eq _ (Element.decodeChecked_eq octets)) fun e _ =>
    decodeChecked_eq e

end Operation

end DirectoryAccess
