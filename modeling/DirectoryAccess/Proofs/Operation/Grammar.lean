import DirectoryAccess.Proofs.Operation.Shortest

/-!
# The grammar of responses

A response to a request begins with an outcome. What may follow is one challenge in the response to
a request to bind, a name and a value in this order in the response to an extended request, and
nothing in six other kinds. An intermediate response has no outcome, and a name and a value alone.
Each of these elements may be missing.

A response is read from exactly the elements that this grammar allows, and carries what they hold
(`decodeAs_iff_grammatical`). The types of what may follow an outcome are not that of the places to
go on at, so no element is taken into the outcome that stands behind it.
-/

namespace DirectoryAccess

open Ber (Element)

/-! ## Parts that may be missing -/

/-- The elements of a part that may be missing: none, or one of its type with its octets. -/
def optionalPart (tag : UInt8) (octets? : Option Octets) : List Element :=
  octets?.toList.map (Element.mk tag)

/-- A part that may be missing has its type where it is there. -/
theorem tag_of_mem_optionalPart {tag : UInt8} {octets? : Option Octets} {part : Element}
    (h : part ∈ optionalPart tag octets?) : part.tag = tag := by
  obtain ⟨octets, -, rfl⟩ := List.mem_map.mp h
  rfl

/-- The elements of a name and a value, each of which may be missing, in this order. -/
def NamedValue.optionalParts (oidTag valueTag : UInt8) (named : NamedValue) : List Element :=
  optionalPart oidTag (named.oid.map Utf8.encode) ++ optionalPart valueTag named.value

/-- A name and a value are written as parts that may be missing. -/
theorem NamedValue.encode_eq_optionalParts (oidTag valueTag : UInt8) (named : NamedValue) :
    named.encode oidTag valueTag = named.optionalParts oidTag valueTag := by
  rw [encode, optionalParts]
  cases named.oid <;> rfl

/-- A name and a value are read from their elements, if these have different types. -/
theorem NamedValue.withParts_eq_ok_iff {kind : Kind} {oidTag valueTag : UInt8}
    {named : NamedValue} {parts : List Element} (hne : valueTag ≠ oidTag) :
    withParts kind oidTag valueTag ⟨none, none⟩ parts = .ok named ↔
      parts = named.optionalParts oidTag valueTag := by
  rw [← encode_eq_optionalParts]
  constructor
  · intro h
    have hparts := encode_of_withParts h
    rw [hparts]
    rfl
  · rintro rfl
    exact withParts_encode hne

/-- A challenge is read from its element behind an outcome that is given. -/
theorem BindResponse.withParts_eq_ok_iff {outcome : Outcome} {response : BindResponse}
    {parts : List Element} :
    withParts ⟨outcome, none⟩ parts = .ok response ↔
      outcome = response.outcome ∧ parts = optionalPart challengeTag response.challenge := by
  constructor
  · intro h
    obtain ⟨houtcome, hparts⟩ := encode_of_withParts h
    exact ⟨houtcome.symm, hparts.symm⟩
  · rintro ⟨rfl, rfl⟩
    exact withParts_encode response.outcome response.challenge

/-! ## Responses -/

variable {e : Element} {outcome : Outcome}

/-- A response that is only an outcome is read from the elements of this. -/
theorem decodeOutcome_eq_ok_iff :
    decodeOutcome e = .ok outcome ↔
      ∃ parts, e.asElements = .ok parts ∧ outcome.Grammatical parts := by
  rw [decodeOutcome, explain_bind_eq_ok_iff]
  refine exists_congr fun parts => and_congr_right fun _ => ?_
  rw [Outcome.decode_bind_eq_ok_iff outcome [] fun _ hpart => absurd hpart List.not_mem_nil]
  · simp only [List.append_nil, exists_eq_right']
  · intro o rest
    cases rest with
    | nil => simp only [pure_eq_ok, Except.ok.injEq, and_true]
    | cons part rest => simp only [throw_eq_error, reduceCtorEq, and_false]

/-- A response to a request to bind is read from an outcome and at most one challenge. -/
theorem BindResponse.decode_eq_ok_iff {response : BindResponse} :
    decode e = .ok response ↔ ∃ parts, e.asElements = .ok parts ∧
      ∃ front, response.outcome.Grammatical front ∧
        parts = front ++ optionalPart challengeTag response.challenge := by
  rw [decode, bind_eq_ok_iff]
  refine exists_congr fun parts => and_congr_right fun _ => ?_
  refine Outcome.decode_bind_eq_ok_iff _ _ ?_ fun o rest => withParts_eq_ok_iff
  intro part hpart
  rw [tag_of_mem_optionalPart hpart]
  decide

/-- A response to an extended request is read from an outcome, at most one name and then at most
one value. -/
theorem ExtendedResponse.decode_eq_ok_iff {response : ExtendedResponse} :
    decode e = .ok response ↔ ∃ parts, e.asElements = .ok parts ∧
      ∃ front, response.outcome.Grammatical front ∧
        parts = front ++ response.named.optionalParts oidTag valueTag := by
  rw [decode, bind_eq_ok_iff]
  refine exists_congr fun parts => and_congr_right fun _ => ?_
  refine Outcome.decode_bind_eq_ok_iff _ _ ?_ ?_
  · intro part hpart
    rcases List.mem_append.mp hpart with hpart | hpart
    · rw [tag_of_mem_optionalPart hpart]
      decide
    · rw [tag_of_mem_optionalPart hpart]
      decide
  · intro o rest
    obtain ⟨outcome, named⟩ := response
    simp only [bind_eq_ok_iff, NamedValue.withParts_eq_ok_iff (by decide : valueTag ≠ oidTag),
      pure_eq_ok, Except.ok.injEq, ExtendedResponse.mk.injEq]
    constructor
    · rintro ⟨_, hrest, rfl, rfl⟩
      exact ⟨rfl, hrest⟩
    · rintro ⟨rfl, hrest⟩
      exact ⟨named, hrest, rfl, rfl⟩

/-- An intermediate response is read from at most one name and then at most one value. -/
theorem IntermediateResponse.decode_eq_ok_iff {named : NamedValue} :
    decode e = .ok named ↔ ∃ parts, e.asElements = .ok parts ∧
      parts = named.optionalParts oidTag valueTag := by
  rw [decode, bind_eq_ok_iff]
  refine exists_congr fun parts => and_congr_right fun _ => ?_
  exact NamedValue.withParts_eq_ok_iff (by decide)

/-- The kinds of responses that have optional parts at their end. -/
def Kind.responses : List Kind :=
  [bindResponse, searchResultDone, modifyResponse, addResponse, deleteResponse, modifyDnResponse,
    compareResponse, extendedResponse, intermediateResponse]

/-- The elements of a response of one of these kinds by the grammar, with what they carry. -/
def Body.Grammatical : (kind : Kind) → Body kind → List Element → Prop
  | .bindResponse, response, parts =>
    ∃ front, response.outcome.Grammatical front ∧
      parts = front ++ optionalPart BindResponse.challengeTag response.challenge
  | .extendedResponse, response, parts =>
    ∃ front, response.outcome.Grammatical front ∧
      parts = front ++
        response.named.optionalParts ExtendedResponse.oidTag ExtendedResponse.valueTag
  | .intermediateResponse, named, parts =>
    parts = named.optionalParts IntermediateResponse.oidTag IntermediateResponse.valueTag
  | .searchResultDone, outcome, parts | .modifyResponse, outcome, parts
  | .addResponse, outcome, parts | .deleteResponse, outcome, parts
  | .modifyDnResponse, outcome, parts | .compareResponse, outcome, parts =>
    Outcome.Grammatical outcome parts
  | _, _, _ => False

/-- **Responses are read from their grammar.** An element is read as a response of one of the kinds
that have optional parts exactly if it has the type of the kind and is made of the elements that
the grammar allows; and what is read is what these hold. -/
theorem decodeAs_iff_grammatical {kind : Kind} (hkind : kind ∈ Kind.responses) (e : Element)
    (body : Body kind) :
    decodeAs kind e = .ok body ↔ e.tag = kind.tag ∧
      ∃ parts, e.asElements = .ok parts ∧ Body.Grammatical kind body parts := by
  rw [decodeAs_eq_ok_iff]
  refine and_congr_right fun _ => ?_
  cases kind with
  | bindResponse => exact BindResponse.decode_eq_ok_iff
  | extendedResponse => exact ExtendedResponse.decode_eq_ok_iff
  | intermediateResponse => exact IntermediateResponse.decode_eq_ok_iff
  | searchResultDone => exact decodeOutcome_eq_ok_iff
  | modifyResponse => exact decodeOutcome_eq_ok_iff
  | addResponse => exact decodeOutcome_eq_ok_iff
  | deleteResponse => exact decodeOutcome_eq_ok_iff
  | modifyDnResponse => exact decodeOutcome_eq_ok_iff
  | compareResponse => exact decodeOutcome_eq_ok_iff
  | _ => exact absurd hkind (by decide)

/-- The elements of a referral that has no message and is named, with an empty value. -/
def namedReferral : List Element :=
  [⟨0x0A, [0x0A]⟩, ⟨0x04, [0x61]⟩, ⟨0x04, []⟩, .texts 0xA3 ["b"], ⟨0x8A, [0x31]⟩, ⟨0x8B, []⟩]

/-- A response with a referral and a name is read from its parts. -/
theorem decodeAs_iff_grammatical_namedReferral :
    Kind.extendedResponse ∈ Kind.responses ∧
      decodeAs .extendedResponse (.sequence 0x78 namedReferral) =
        .ok ⟨⟨⟨10⟩, "a", "", ["b"]⟩, ⟨some "1", some []⟩⟩ := by
  have hkind : Kind.extendedResponse ∈ Kind.responses := by decide
  have hparts : (Element.sequence 0x78 namedReferral).asElements = .ok namedReferral :=
    Element.asElements_sequence (by decide +kernel) (by decide +kernel)
  have htexts : (Element.texts 0xA3 ["b"]).IsTexts ["b"] :=
    Element.asTexts_eq_ok_iff.mp (Element.asTexts_texts (by decide +kernel))
  refine ⟨hkind, (decodeAs_iff_grammatical hkind _ _).mpr
    ⟨rfl, namedReferral, hparts, [_, _, _, _], ?_, rfl⟩⟩
  exact .intro ⟨by decide, by decide, by decide⟩ (.present (by decide) rfl) (.absent rfl)
    (.list rfl htexts)

end DirectoryAccess
