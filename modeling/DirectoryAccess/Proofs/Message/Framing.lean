import DirectoryAccess.Proofs.Message.Codec
import DirectoryAccess.Proofs.Message.Stream

/-!
# Messages one behind the other

A message is read back from a stream wherever its octets stand, and the reader then
stands behind them with the sequences open that were open before (`read_of_window`).
So messages that are written one behind the other are read back one by one, whatever
follows them. A message with a negative number is refused, in a stream and as a whole
(`readCount_toOctets`).
-/

namespace DirectoryAccess

open Ber (Element Header Limits Reader Reading Tag isConstructed)

namespace Message

/-- A message that a reader with the given limits reads back. -/
structure Framed (limits : Limits) (message : Message) : Prop where
  /-- The number is not negative. -/
  id_nonneg : 0 ≤ message.id
  /-- The operation is read back from its own octets. -/
  op_reads : Operation.ofOctets message.op.toOctets = .ok message.op
  /-- The value is not larger than the reader allows. -/
  size_le : message.encode.value.length ≤ limits.elementSize
  /-- The value has a length that is read. -/
  size_lt : message.encode.value.length < 2 ^ 32

/-- Reads some messages one after the other. -/
def readCount : Nat → Reading (List Message)
  | 0 => pure []
  | count + 1 => do
    let message ← read
    return message :: (← readCount count)

variable {r : Reader} {message : Message} {rest : Octets}

/-- A message is read back from its element if a reader could read it back. -/
theorem Framed.decode_encode {limits : Limits} (h : message.Framed limits) :
    decode message.encode = .ok message := by
  have hop : message.op.encode.value.length < 2 ^ 32 :=
    Element.length_value_lt_of_mem (by simp) h.size_lt
  refine Message.decode_encode h.size_lt h.id_nonneg ?_
  rw [← Operation.ofOctets_toOctets_eq message.op hop]
  exact h.op_reads

/-- A message is read back where its octets are at the front of the window, and the reader then
stands behind them. -/
theorem read_of_window (hdepth : r.ends.length + 1 < r.limits.depth)
    (h : message.Framed r.limits) (hw : r.window = message.toOctets ++ rest) :
    read r = (.ok message, r.advance message.toOctets.length) := by
  have hc : isConstructed message.encode.tag = true := by
    rw [encode_tag]
    decide
  have he := Reading.element_of_window Ber.isMultiOctet_sequence h.size_lt h.size_le hw
  exact ((agrees_read hdepth he hc).eq_ok_iff message _).mpr ⟨h.decode_encode, rfl⟩

/-- Messages are read back where their octets are at the front of the window, one behind the
other, and the reader then stands behind all of them. -/
theorem readCount_of_window {messages : List Message} (hdepth : r.ends.length + 1 < r.limits.depth)
    (h : ∀ message ∈ messages, message.Framed r.limits)
    (hw : r.window = messages.flatMap toOctets ++ rest) :
    readCount messages.length r =
      (.ok messages, r.advance (messages.flatMap toOctets).length) := by
  induction messages generalizing r with
  | nil => rfl
  | cons message messages ih =>
      rw [List.flatMap_cons, List.append_assoc] at hw
      have hread := read_of_window hdepth (h message (List.mem_cons_self ..)) hw
      have hrest : (r.advance message.toOctets.length).window =
          messages.flatMap toOctets ++ rest := by
        rw [Reader.advance_window, hw, List.drop_left]
      have hothers := ih (r := r.advance message.toOctets.length) hdepth
        (fun m hm => h m (List.mem_cons_of_mem _ hm)) hrest
      rw [List.length_cons, readCount, Reading.bind_of_ok hread, Reading.bind_of_ok hothers,
        Reader.advance_advance, List.flatMap_cons, List.length_append]
      rfl

/-! ## Negative numbers -/

/-- A message that is read from a stream has a number that is not negative. -/
theorem id_nonneg_of_read {s : Reader} (h : read r = (.ok message, s)) : 0 ≤ message.id := by
  rw [read_eq] at h
  obtain ⟨opened, r₁, -, h⟩ := Reading.exists_of_bind_eq_ok h
  obtain ⟨id, r₂, hid, h⟩ := Reading.exists_of_bind_eq_ok h
  obtain ⟨op, r₃, -, h⟩ := Reading.exists_of_bind_eq_ok h
  have hend {controls : List Control} {r₄ : Reader}
      (h : readEnd opened ⟨id, op, controls⟩ r₄ = (.ok message, s)) : message.id = id := by
    obtain ⟨-, r₅, -, h⟩ := Reading.exists_of_bind_eq_ok h
    cases h
    rfl
  have hmessage : message.id = id := by
    rw [Reading.ifMore, Reading.view_bind_apply] at h
    split at h
    · obtain ⟨controls, r₄, -, h⟩ := Reading.exists_of_bind_eq_ok h
      exact hend h
    · exact hend h
  obtain ⟨number, r', -, hcheck⟩ := Reading.exists_of_bind_eq_ok hid
  obtain ⟨rfl, hnonneg⟩ := nonneg_of_checkId (Prod.mk.inj hcheck).1
  rw [hmessage]
  exact hnonneg

/-- A message that is read as a whole has a number that is not negative. -/
theorem id_nonneg_of_ofOctets {octets : Octets} (h : ofOctets octets = .ok message) :
    0 ≤ message.id := by
  obtain ⟨element, -, hread⟩ := bind_eq_ok_iff.mp h
  obtain ⟨_, _, _, -, hreads⟩ := readsFrom_of_decode hread
  exact hreads.id_nonneg

/-- Where no sequence can be opened, no message can be read. -/
theorem read_of_openSequence_error {failure : Failure} {s : Reader}
    (h : Reading.openSequence r = (.error failure, s)) :
    ∃ failure s, read r = (.error failure, s) := by
  rw [read_eq]
  exact ⟨_, s, Reading.bind_of_error (Reading.explain_of_error _ h) _⟩

/-- A negative number at the front of a sequence is not read as that of a message. -/
theorem readId_of_neg {outer : Reader} {stop : Nat} {id : Int32} (hin : Reader.Inside outer stop r)
    (hid : id < 0) (hw : r.window = (Element.integer Tag.integer id.toInt).encode ++ rest) :
    ∃ failure s, readId r = (.error failure, s) := by
  have hs : (Element.integer Tag.integer id.toInt).value.length < 2 ^ 32 := by
    have hl := Int32.le_toInt id
    have hh := Int32.toInt_lt id
    have hlength : (Ber.encodeInteger id.toInt).length ≤ 3 + 1 :=
      Ber.length_encodeInteger_le (by omega) (by omega)
    exact Nat.lt_of_le_of_lt hlength (by decide)
  have hsplit := Element.split_encode_append Ber.isMultiOctet_integer hs rest
  rw [← hw] at hsplit
  obtain ⟨r', he, -, -⟩ := hin.element_of_split hsplit
  have hlook : decodeId (.integer Tag.integer id.toInt) =
      .error (.malformed s!"message ID must not be negative, got {id}") := by
    rw [decodeId, Element.asInt32_integer, explain_ok, ok_bind]
    exact if_pos hid
  cases (looks_readId r).agrees _ _ he with
  | ok v _ hanswer =>
      rw [hlook] at hanswer
      cases hanswer
  | error failure _ s houtcome _ => exact ⟨failure, s, houtcome⟩

/-- A message with a negative number is not read where its octets are at the front of the window,
whatever the limits: if it has a header, that is its own, and the number is next. -/
theorem read_of_window_of_neg (hs : message.encode.value.length < 2 ^ 64) (hid : message.id < 0)
    (hw : r.window = message.toOctets ++ rest) : ∃ failure s, read r = (.error failure, s) := by
  rcases Nat.lt_or_ge r.ends.length r.limits.depth with hdepth | hdepth
  case inr => exact read_of_openSequence_error (Reading.openSequence_of_depth hdepth)
  rcases Reading.header_cases r with ⟨failure, hf⟩ | ⟨head, hd, hsize⟩
  · exact read_of_openSequence_error (Reading.openSequence_of_header_error hdepth hf)
  have hlt : message.encode.value.length < 2 ^ 32 := by
    refine Nat.lt_of_not_le fun hge => ?_
    obtain ⟨failure, hf⟩ := Header.decode_encode_append_of_wide hge hs rest
    rw [hw, toOctets, hf] at hd
    cases hd
  have hread := Element.split_of_decode hd
  rw [hw, toOctets, Element.split_encode_append Ber.isMultiOctet_sequence hlt rest] at hread
  obtain ⟨hmessage, -⟩ := Prod.mk.inj (Except.ok.inj hread)
  have htag : head.tag = Tag.sequence := (congrArg Element.tag hmessage).symm
  obtain ⟨inner, hopen, hin, hvalue⟩ :=
    Reading.openSequence_inside hdepth hd hsize (by rw [htag]; decide)
  have hinner : inner.window = message.encode.value := by
    rw [hvalue, hw]
    exact (congrArg Element.value hmessage).symm
  obtain ⟨failure, s, hnumber⟩ := readId_of_neg hin hid hinner
  rw [read_eq, Reading.bind_of_ok (Reading.explain_of_ok _ hopen)]
  exact ⟨failure, s, Reading.bind_of_error hnumber _⟩

/-- A message with a negative number is not read as a whole. -/
theorem ofOctets_toOctets_of_neg (hs : message.encode.value.length < 2 ^ 64)
    (hid : message.id < 0) : ∃ failure, ofOctets message.toOctets = .error failure := by
  rcases Nat.lt_or_ge message.encode.value.length (2 ^ 32) with hlt | hge
  · obtain ⟨failure, hread⟩ := decode_encode_of_neg hlt hid
    refine ⟨failure, ?_⟩
    rw [ofOctets, toOctets, Element.decode_encode Ber.isMultiOctet_sequence hlt, explain_ok,
      ok_bind, hread]
  · obtain ⟨failure, hread⟩ := Element.decode_encode_of_wide hge hs
    exact ⟨_, by rw [ofOctets, toOctets, hread, explain_error, error_bind]⟩

/-- **Framing.** Messages that are written one behind the other are read back one by one, whatever
follows them; the reader then has no sequence open and stands in front of what follows. A message
with a negative number is refused as a whole, and by every reader that stands in front of it,
whatever its limits, if the length of the message fits in 64 bits. Nor is anything else read as a
message with a negative number. -/
theorem readCount_toOctets :
    (∀ (limits : Limits) (messages : List Message) (rest : Octets), 2 ≤ limits.depth →
      (∀ message ∈ messages, message.Framed limits) →
      ∃ s, readCount messages.length
          (Reader.ofOctets (messages.flatMap toOctets ++ rest) limits) = (.ok messages, s) ∧
        s.ends = [] ∧ s.position = (messages.flatMap toOctets).length ∧ s.window = rest) ∧
    (∀ message : Message, message.encode.value.length < 2 ^ 64 → message.id < 0 →
      (∃ failure, ofOctets message.toOctets = .error failure) ∧
        ∀ (r : Reader) (rest : Octets), r.window = message.toOctets ++ rest →
          ∃ failure s, read r = (.error failure, s)) ∧
    (∀ octets message, ofOctets octets = .ok message → 0 ≤ message.id) ∧
    ∀ (r s : Reader) message, read r = (.ok message, s) → 0 ≤ message.id := by
  refine ⟨?_, ?_, fun _ _ => id_nonneg_of_ofOctets, fun _ _ _ => id_nonneg_of_read⟩
  · intro limits messages rest hdepth h
    have hw := Reader.window_ofOctets (messages.flatMap toOctets ++ rest) limits
    refine ⟨_, readCount_of_window hdepth h hw, rfl, Nat.zero_add _, ?_⟩
    rw [Reader.advance_window, hw, List.drop_left]
  · intro message hs hid
    exact ⟨ofOctets_toOctets_of_neg hs hid, fun r rest => read_of_window_of_neg hs hid⟩

/-- A message with an operation that is read piece by piece, and with a critical control. -/
def extending : Message :=
  ⟨1, ⟨.extendedRequest, ⟨⟨"1.2", by decide⟩, some [0x00]⟩⟩, [⟨⟨"1.3", by decide⟩, true, some []⟩]⟩

/-- A message with a control and one without are read back in front of other octets; a message with
a negative number is not read back. -/
theorem readCount_toOctets_extending :
    (∀ message ∈ [extending, unbinding], message.Framed ⟨27, 2⟩) ∧
      (∃ s, readCount 2 (Reader.ofOctets (extending.toOctets ++ unbinding.toOctets ++ [0x30, 0x05])
          ⟨27, 2⟩) = (.ok [extending, unbinding], s) ∧
        s.ends = [] ∧ s.position = 36 ∧ s.window = [0x30, 0x05]) ∧
      (∃ failure, ofOctets (toOctets { unbinding with id := -1 }) = .error failure) ∧
      ∃ failure s, read (Reader.ofOctets (toOctets { unbinding with id := -1 } ++ [0x30]) ⟨27, 2⟩) =
        (.error failure, s) := by
  have hframed : ∀ message ∈ [extending, unbinding], message.Framed ⟨27, 2⟩ := by
    intro message h
    rcases List.mem_cons.mp h with rfl | h
    · exact ⟨by decide, by decide +kernel, by decide +kernel, by decide +kernel⟩
    · obtain rfl := List.mem_singleton.mp h
      exact ⟨by decide, by decide +kernel, by decide +kernel, by decide +kernel⟩
  obtain ⟨hread, hneg, -⟩ := readCount_toOctets
  obtain ⟨s, hs, hends, hposition, hrest⟩ :=
    hread ⟨27, 2⟩ [extending, unbinding] [0x30, 0x05] (by decide) hframed
  have hlength : ([extending, unbinding].flatMap toOctets).length = 36 := by decide +kernel
  have hstreamed : readCount 2 (Reader.ofOctets
      (extending.toOctets ++ unbinding.toOctets ++ [0x30, 0x05]) ⟨27, 2⟩) =
      (.ok [extending, unbinding], s) := by
    rw [List.flatMap_cons, List.flatMap_singleton] at hs
    exact hs
  obtain ⟨hwhole, hstream⟩ := hneg { unbinding with id := -1 } (by decide +kernel) (by decide)
  exact ⟨hframed, ⟨s, hstreamed, hends, hposition.trans hlength, hrest⟩, hwhole,
    hstream _ [0x30] (Reader.window_ofOctets _ _)⟩

end Message

end DirectoryAccess
