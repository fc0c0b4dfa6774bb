import DirectoryAccess.Message
import DirectoryAccess.Proofs.Control

/-!
# Messages read back

A message is read back from its element where its number is not negative and its
operation is read back; a message with a negative number is refused. Whatever an
element is, a message that is read from it has a number that is not negative.
-/

namespace DirectoryAccess

open Ber (Element Tag isMultiOctet)
open Ber.Element

namespace Message

@[simp] theorem encode_tag (message : Message) : message.encode.tag = Tag.sequence := rfl

@[simp] theorem isMultiOctet_controlsTag : isMultiOctet controlsTag = false := by decide

/-! ## Parts of a message -/

/-- A number that is not negative is accepted. -/
theorem checkId_of_nonneg {id : Int32} (h : 0 ≤ id) : checkId id = .ok id :=
  if_neg (Int32.not_lt.mpr h)

/-- A number that is accepted is kept, and is not negative. -/
theorem nonneg_of_checkId {id v : Int32} (h : checkId id = .ok v) : v = id ∧ 0 ≤ id := by
  rw [checkId] at h
  split at h
  · cases h
  · rename_i hneg
    cases h
    exact ⟨rfl, Int32.not_lt.mp hneg⟩

/-- A message whose number, operation and controls are what the given elements are. -/
structure ReadsFrom (id op : Element) (controls? : Option Element) (message : Message) : Prop where
  /-- The number is that of the first element. -/
  id_eq : id.asInt32 = .ok message.id
  /-- The number is not negative. -/
  id_nonneg : 0 ≤ message.id
  /-- The operation is that of the second element. -/
  op_eq : Operation.decode op = .ok message.op
  /-- The controls are those of the third element, and there are none without it. -/
  controls_eq : controls?.elim (.ok []) Control.decodeList = .ok message.controls

/-- What the parts of a message are read as is made of what each of them holds. -/
theorem readsFrom_of_decodeParts {id op : Element} {controls? : Option Element}
    {message : Message} (h : decodeParts id op controls? = .ok message) :
    ReadsFrom id op controls? message := by
  obtain ⟨number, hnumber, h⟩ := bind_eq_ok_iff.mp h
  obtain ⟨read, hread, hcheck⟩ := explain_bind_eq_ok_iff.mp hnumber
  obtain ⟨rfl, hnonneg⟩ := nonneg_of_checkId hcheck
  obtain ⟨operation, hop, h⟩ := explain_bind_eq_ok_iff.mp h
  cases controls? with
  | none =>
      cases h
      exact ⟨hread, hnonneg, hop, rfl⟩
  | some element =>
      obtain ⟨controls, hcontrols, h⟩ := bind_eq_ok_iff.mp h
      cases h
      rw [decodeControls] at hcontrols
      split at hcontrols
      · exact ⟨hread, hnonneg, hop, hcontrols⟩
      · cases hcontrols

/-- An element that is read as a message has two or three parts, which are what the message is
read from. -/
theorem readsFrom_of_decode {element : Element} {message : Message}
    (h : decode element = .ok message) : ∃ (id op : Element) (controls? : Option Element),
      element.asElements = .ok (id :: op :: controls?.toList) ∧
        ReadsFrom id op controls? message := by
  obtain ⟨parts, hparts, h⟩ := explain_bind_eq_ok_iff.mp h
  split at h
  · exact ⟨_, _, none, hparts, readsFrom_of_decodeParts h⟩
  · exact ⟨_, _, some _, hparts, readsFrom_of_decodeParts h⟩
  · cases h

/-! ## Messages -/

/-- The parts of a message are read back as elements. -/
theorem asElements_encode {message : Message} (hs : message.encode.value.length < 2 ^ 32) :
    message.encode.asElements =
      .ok ([.integer Tag.integer message.id.toInt, message.op.encode] ++
        (if message.controls.isEmpty then []
          else [Control.encodeList controlsTag message.controls])) := by
  refine asElements_sequence ?_ hs
  cases message.controls.isEmpty <;> simp [Control.encodeList]

/-- A message is read back from its element if its number is not negative and its operation is
read back. -/
theorem decode_encode {message : Message} (hs : message.encode.value.length < 2 ^ 32)
    (hid : 0 ≤ message.id) (hop : Operation.decode message.op.encode = .ok message.op) :
    decode message.encode = .ok message := by
  have hparts := asElements_encode hs
  obtain ⟨id, op, controls⟩ := message
  cases controls with
  | nil =>
      simp only [decode, hparts, explain_ok, ok_bind, List.isEmpty_nil, if_true, List.append_nil,
        decodeParts, asInt32_integer, checkId_of_nonneg hid, hop, pure_eq_ok]
  | cons control controls =>
      have hcontrols : Control.decodeList (Control.encodeList controlsTag (control :: controls)) =
          .ok (control :: controls) :=
        Control.decodeList_encodeList (length_value_lt_of_mem (by simp) hs)
      have htag : (Control.encodeList controlsTag (control :: controls)).tag = controlsTag := rfl
      simp only [decode, hparts, explain_ok, ok_bind, List.isEmpty_cons, Bool.false_eq_true,
        if_false, List.cons_append, List.nil_append, decodeParts, asInt32_integer,
        checkId_of_nonneg hid, hop, decodeControls, if_pos htag, hcontrols, pure_eq_ok]

/-- A message is read back from its octets if its number is not negative and its operation
carries nothing that no reader accepts. -/
theorem ofOctets_toOctets_of_readsBack {message : Message}
    (hs : message.encode.value.length < 2 ^ 32) (hid : 0 ≤ message.id)
    (hop : message.op.ReadsBack) : ofOctets message.toOctets = .ok message := by
  have hsize : message.op.encode.value.length < 2 ^ 32 := length_value_lt_of_mem (by simp) hs
  have hread := (Operation.decode_encode_eq_ok_iff message.op message.op hsize).mpr ⟨rfl, hop⟩
  rw [ofOctets, toOctets, Element.decode_encode Ber.isMultiOctet_sequence hs, explain_ok, ok_bind]
  exact decode_encode hs hid hread

/-- A message with a negative number is not read back. -/
theorem decode_encode_of_neg {message : Message} (hs : message.encode.value.length < 2 ^ 32)
    (hid : message.id < 0) : ∃ failure, decode message.encode = .error failure := by
  cases h : decode message.encode with
  | error failure => exact ⟨failure, rfl⟩
  | ok taken =>
      obtain ⟨id, op, controls?, hparts, hreads⟩ := readsFrom_of_decode h
      obtain ⟨rfl, -⟩ := List.cons.inj (Except.ok.inj ((asElements_encode hs).symm.trans hparts))
      have hnumber := hreads.id_eq
      rw [asInt32_integer] at hnumber
      rw [Except.ok.inj hnumber] at hid
      exact absurd hreads.id_nonneg (Int32.not_le.mpr hid)

end Message

end DirectoryAccess
