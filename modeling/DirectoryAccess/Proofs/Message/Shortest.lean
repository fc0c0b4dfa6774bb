import DirectoryAccess.Proofs.Message.Codec

/-!
# Written messages are the shortest

Octets that are read as an operation or as a message may say it at length: with padded
numbers and lengths, flags that are false, limits that are negative, lists of controls
that are empty. What is read is then written with no more octets, and those are read as
the same again (`toOctets_shortest`), so writing loses nothing that reading saw.
-/

namespace DirectoryAccess

open Ber (Element)
open Ber.Element (FitIn FitsIn)

namespace Message

variable {element : Element} {message : Message}

/-- A message fits in the room of the element that it was read from. -/
theorem fitsIn_of_decode (h : decode element = .ok message) : message.encode.FitsIn element := by
  obtain ⟨id, op, controls?, hparts, hreads⟩ := readsFrom_of_decode h
  have hcontrols : FitIn (if message.controls.isEmpty then []
      else [Control.encodeList controlsTag message.controls]) controls?.toList := by
    split
    · exact .nil
    · rename_i hne
      have hread := hreads.controls_eq
      cases controls? with
      | none =>
          rw [← Except.ok.inj hread] at hne
          exact absurd rfl hne
      | some controls => exact .cons (Control.fitsIn_of_decodeList hread) .nil
  exact .sequence hparts
    (.cons (.integer hreads.id_eq) (.cons (Operation.fitsIn_of_decode hreads.op_eq) hcontrols))

/-- A message that was read is read back. -/
theorem decode_encode_of_decode (hs : element.value.length < 2 ^ 32)
    (h : decode element = .ok message) : decode message.encode = .ok message := by
  obtain ⟨id, op, controls?, hparts, hreads⟩ := readsFrom_of_decode h
  have hop : op.value.length < 2 ^ 32 := by
    have hroom : FitsIn (.sequence 0 (id :: op :: controls?.toList)) element :=
      .sequence hparts (.refl _)
    exact Element.length_value_lt_of_mem (by simp) (Nat.lt_of_le_of_lt hroom hs)
  exact decode_encode (Nat.lt_of_le_of_lt (fitsIn_of_decode h) hs) hreads.id_nonneg
    (Operation.decode_encode_of_decode hop hreads.op_eq)

/-- **Written forms are the shortest.** Octets that are read as an operation are no fewer than those
that the operation is written as, which are read as it again; and so for messages. -/
theorem toOctets_shortest (octets : Octets) :
    (∀ op, Operation.ofOctets octets = .ok op →
      Operation.ofOctets op.toOctets = .ok op ∧ op.toOctets.length ≤ octets.length) ∧
    ∀ message, ofOctets octets = .ok message →
      ofOctets message.toOctets = .ok message ∧ message.toOctets.length ≤ octets.length := by
  constructor
  · intro op
    exact Element.read_encode_of_read Operation.isMultiOctet_tag_encode
      (fun _ _ => Operation.fitsIn_of_decode) (fun _ _ => Operation.decode_encode_of_decode)
  · intro message
    exact Element.read_encode_of_read (fun _ => Ber.isMultiOctet_sequence)
      (fun _ _ => fitsIn_of_decode) (fun _ _ => decode_encode_of_decode)

/-- A search for an attribute, said at length: a length, the message number and the scope are
padded, a limit is negative, the attribute stands in front of the matching rule, a flag of false and
an empty list of controls are there. -/
def lengthySearch : Octets :=
  [0x30, 0x81, 0x2B, 0x02, 0x02, 0x00, 0x05,
    0x63, 0x23, 0x04, 0x00, 0x0A, 0x02, 0x00, 0x02, 0x0A, 0x01, 0x00, 0x02, 0x01, 0xFF, 0x02, 0x01,
    0x00, 0x01, 0x01, 0x01,
    0xA9, 0x0D, 0x82, 0x02, 0x63, 0x6E, 0x81, 0x01, 0x78, 0x83, 0x01, 0x61, 0x84, 0x01, 0x00,
    0x30, 0x00,
    0xA0, 0x00]

/-- What that search is. -/
def plainSearch : Message :=
  ⟨5, ⟨.searchRequest, ⟨"", .subtree, .never, .ofInt32 0, .ofInt32 0, true,
    .extensible ⟨some "x", some "cn", [0x61], false⟩, []⟩⟩, []⟩

/-- A search whose lengths take more octets than they need is written back with fewer. -/
theorem toOctets_shortest_lengthySearch :
    (Operation.ofOctets [0x50, 0x02, 0x00, 0x07] = .ok ⟨.abandonRequest, 7⟩ ∧
      Operation.ofOctets (Operation.toOctets ⟨.abandonRequest, 7⟩) = .ok ⟨.abandonRequest, 7⟩ ∧
      (Operation.toOctets ⟨.abandonRequest, 7⟩).length ≤ 4) ∧
    ofOctets lengthySearch = .ok plainSearch ∧
      ofOctets plainSearch.toOctets = .ok plainSearch ∧
      plainSearch.toOctets.length ≤ lengthySearch.length := by
  have hop : Operation.ofOctets [0x50, 0x02, 0x00, 0x07] = .ok ⟨.abandonRequest, 7⟩ := by
    decide +kernel
  have hmessage : ofOctets lengthySearch = .ok plainSearch := by decide +kernel
  exact ⟨⟨hop, (toOctets_shortest _).1 _ hop⟩, hmessage, (toOctets_shortest _).2 _ hmessage⟩

end Message

end DirectoryAccess
