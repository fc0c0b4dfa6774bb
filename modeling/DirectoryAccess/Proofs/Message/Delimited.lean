import DirectoryAccess.Proofs.Ber.Delimited
import DirectoryAccess.Proofs.Message.Framing

/-!
# Operations and messages tell where they end

No octets that are accepted as an operation or as a message are accepted when they
are cut short or when anything follows them (`ofOctets_delimited`). Whoever has
received a part of an operation or of a message therefore learns so, as a whole and
in a stream, whatever the limits of the reader are.
-/

namespace DirectoryAccess

open Ber (Element Header Limits Reader Reading)

/-- Octets that are accepted, while neither a part from their front nor anything longer is. -/
structure Delimited {α : Type} (ofOctets : Octets → Except Failure α) (read : Reading α)
    (octets : Octets) : Prop where
  /-- They are refused when they are cut short. -/
  cut : ∀ front, front <+: octets → front ≠ octets → ∃ failure, ofOctets front = .error failure
  /-- A reader of what is left of them refuses it, whatever its limits. -/
  cut_read : ∀ front, front <+: octets → front ≠ octets → ∀ limits,
    ∃ failure s, read (Reader.ofOctets front limits) = (.error failure, s)
  /-- They are refused when anything follows. -/
  longer : ∀ longer, octets <+: longer → longer ≠ octets →
    ∃ failure, ofOctets longer = .error failure

/-- What is accepted as one element is delimited, if nothing is read without a header. -/
theorem delimited_of_element {α : Type} {decode : Element → Except Failure α} {read : Reading α}
    {message : String} {octets : Octets} {a : α}
    (hread : ∀ r failure, Header.decode r.window = .error failure →
      ∃ cause s, read r = (.error cause, s))
    (h : (explain message (Element.decode octets) >>= decode) = .ok a) :
    Delimited (fun octets => explain message (Element.decode octets) >>= decode) read octets := by
  obtain ⟨element, he, -⟩ := explain_bind_eq_ok_iff.mp h
  have hrefuse {octets : Octets} (hf : ∃ failure, Element.decode octets = .error failure) :
      ∃ failure, (explain message (Element.decode octets) >>= decode) = .error failure := by
    obtain ⟨failure, hf⟩ := hf
    exact ⟨_, by rw [hf, explain_error, error_bind]⟩
  refine ⟨fun front hfront hne => ?_, fun front hfront hne limits => ?_,
    fun longer hlonger hne => hrefuse (Element.decode_error_of_longer he hlonger hne)⟩
  · obtain ⟨failure, hf⟩ := Element.header_error_of_decode he hfront hne
    exact hrefuse ⟨failure, by rw [Element.decode, Element.split_of_decode_error hf]⟩
  · obtain ⟨failure, hf⟩ := Element.header_error_of_decode he hfront hne
    rw [← Reader.window_ofOctets front limits] at hf
    exact hread _ failure hf

/-! ## Reading without a header -/

section NoHeader

variable {r : Reader} {failure : Failure}

/-- An operation whose pieces cannot be read cannot be read. -/
theorem readPieces_error {kind : Kind} {pieces : Reading (Body kind)}
    (h : ∃ cause s, pieces r = (.error cause, s)) :
    ∃ cause s, readPieces kind pieces r = (.error cause, s) := by
  obtain ⟨cause, s, hp⟩ := h
  rw [readPieces, Reading.view_bind_apply]
  split
  · exact ⟨_, s, Reading.explain_of_error _ hp⟩
  · exact ⟨_, r, rfl⟩

/-- Without a header no operation of any kind is read. -/
theorem readAs_of_header_error (h : Header.decode r.window = .error failure) (kind : Kind) :
    ∃ cause s, readAs kind r = (.error cause, s) := by
  have he := Reading.element_of_header_error (Reading.header_of_error h)
  by_cases hext : kind = .extendedRequest
  · subst hext
    obtain ⟨cause, hopen⟩ := Reading.exists_openSequence_error h
    refine readPieces_error ⟨cause, r, ?_⟩
    rw [ExtendedRequest.readParts_eq, Reading.bind_of_error hopen]
  by_cases hdel : kind = .deleteRequest
  · subst hdel
    refine readPieces_error ⟨failure, r, ?_⟩
    rw [Reading.text_eq_elementAs, Reading.elementAs_of_element_error he]
  · rw [readAs_eq_readWhole hext hdel]
    exact (looks_readWhole kind r).fails failure r he

/-- Without a header no operation is read. -/
theorem Operation.read_of_header_error (h : Header.decode r.window = .error failure) :
    ∃ cause s, read r = (.error cause, s) := by
  rw [read, Reading.view_bind_apply]
  cases r.peek? with
  | none => exact ⟨_, r, rfl⟩
  | some tag =>
      cases hkind : Kind.ofTag? tag with
      | none =>
          simp only [hkind]
          exact ⟨_, r, rfl⟩
      | some kind =>
          simp only [hkind]
          obtain ⟨cause, s, hread⟩ := readAs_of_header_error h kind
          exact ⟨cause, s, Reading.map_of_error hread _⟩

/-- Without a header no message is read. -/
theorem Message.read_of_header_error (h : Header.decode r.window = .error failure) :
    ∃ cause s, read r = (.error cause, s) := by
  obtain ⟨cause, hopen⟩ := Reading.exists_openSequence_error h
  exact read_of_openSequence_error hopen

end NoHeader

/-- **Accepted octets are delimited.** Octets that are accepted as an operation, or as a message,
are refused when they are cut short anywhere, as a whole and by a reader with any limits, and they
are refused as a whole when anything follows them. -/
theorem ofOctets_delimited :
    (∀ octets op, Operation.ofOctets octets = .ok op →
      Delimited Operation.ofOctets Operation.read octets) ∧
    ∀ octets message, Message.ofOctets octets = .ok message →
      Delimited Message.ofOctets Message.read octets := by
  constructor
  · intro octets op h
    exact delimited_of_element (fun _ _ => Operation.read_of_header_error) h
  · intro octets message h
    exact delimited_of_element (fun _ _ => Message.read_of_header_error) h

/-- An extended request whose length takes more octets than it needs. -/
def paddedRequest : Octets := [0x77, 0x82, 0x00, 0x05, 0x80, 0x03, 0x31, 0x2E, 0x32]

/-- A request whose length takes one octet more than it needs is delimited; a prefix of it and its
extension by an octet are refused. -/
theorem ofOctets_delimited_paddedRequest :
    Operation.ofOctets paddedRequest = .ok ⟨.extendedRequest, ⟨⟨"1.2", by decide⟩, none⟩⟩ ∧
      (∃ failure, Operation.ofOctets [0x77, 0x82, 0x00] = .error failure) ∧
      (∃ failure s, Operation.read (Reader.ofOctets [0x77, 0x82, 0x00, 0x05, 0x80] ⟨5, 0⟩) =
        (.error failure, s)) ∧
      (∃ failure, Operation.ofOctets (paddedRequest ++ [0x00]) = .error failure) ∧
      Message.ofOctets [0x30, 0x05, 0x02, 0x01, 0x05, 0x42, 0x00] = .ok Message.unbinding ∧
      ∃ failure s, Message.read (Reader.ofOctets [0x30, 0x05, 0x02, 0x01, 0x05] .default) =
        (.error failure, s) := by
  have hop : Operation.ofOctets paddedRequest =
      .ok ⟨.extendedRequest, ⟨⟨"1.2", by decide⟩, none⟩⟩ := by decide +kernel
  have hmessage : Message.ofOctets [0x30, 0x05, 0x02, 0x01, 0x05, 0x42, 0x00] =
      .ok Message.unbinding := Message.ofOctets_unbinding (by decide)
  obtain ⟨hcut, hread, hlonger⟩ := ofOctets_delimited.1 _ _ hop
  refine ⟨hop, hcut _ ⟨[0x05, 0x80, 0x03, 0x31, 0x2E, 0x32], rfl⟩ (by decide),
    hread _ ⟨[0x03, 0x31, 0x2E, 0x32], rfl⟩ (by decide) _,
    hlonger _ (List.prefix_append _ _) (by decide), hmessage, ?_⟩
  exact (ofOctets_delimited.2 _ _ hmessage).cut_read _ ⟨[0x42, 0x00], rfl⟩ (by decide) _

end DirectoryAccess
