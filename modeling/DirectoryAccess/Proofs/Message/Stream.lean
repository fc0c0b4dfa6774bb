import DirectoryAccess.Message
import DirectoryAccess.Proofs.Operation.Stream

/-!
# Messages read from a stream and from octets

A message is read from a stream part by part and taken from an element by the
list of its parts, and both come to the same (`agrees_read`). They differ in
one thing. A stream opens the outermost element as a sequence, which its type has
to allow; the element is looked at as a sequence whatever its type says. So octets
are read as a message from a stream exactly if they are taken for that message as
a whole and begin with a constructed type.
-/

namespace DirectoryAccess

open Ber (Element Header Limits Opened Reader Reading isConstructed)
open Ber.Reading (Agrees Looks)

namespace Message

variable {r r' : Reader} {e : Element}

/-! ## The parts of a message -/

/-- The number of a message, from its element. -/
def decodeId (element : Element) : Except Failure Int32 :=
  explain "cannot decode the message ID" element.asInt32 >>= checkId

/-- The operation of a message, from its element. -/
def decodeOp (id : Int32) (element : Element) : Except Failure Operation :=
  explain s!"cannot decode the operation of message {id}" (Operation.decode element)

/-- The message whose parts some elements are. -/
def ofParts : List Element → Except Failure Message
  | [id, op] => decodeParts id op none
  | [id, op, controls] => decodeParts id op (some controls)
  | parts => .error (.elementCount "LDAP message" "2 or 3" parts.length)

/-- The message of the given number and operation whose controls some elements are, if there
are any. -/
def ofControls (id : Int32) (op : Operation) : List Element → Except Failure Message
  | [] => .ok ⟨id, op, []⟩
  | controls :: parts => decodeControls id controls >>= fun controls =>
    Element.atEnd ⟨id, op, controls⟩ parts

/-- The message of the given number whose operation and controls some elements are. -/
def ofOp (id : Int32) : List Element → Except Failure Message
  | [] => .error (.elementCount "LDAP message" "2 or 3" 1)
  | op :: parts => decodeOp id op >>= fun op => ofControls id op parts

theorem decode_eq (e : Element) :
    decode e = explain "LDAP message is not a valid sequence" e.asElements >>= ofParts := rfl

/-- A message is decoded exactly if it is made of the elements in its value. -/
theorem decode_eq_ok_iff (e : Element) (message : Message) :
    decode e = .ok message ↔ (Element.elementsOf e.value >>= ofParts) = .ok message := by
  rw [decode_eq, bind_eq_ok_iff, bind_eq_ok_iff]
  simp only [explain_eq_ok_iff]
  exact Iff.rfl

theorem ofParts_cons (e : Element) (parts : List Element) (message : Message) :
    ofParts (e :: parts) = .ok message ↔
      (decodeId e >>= fun id => ofOp id parts) = .ok message := by
  rcases parts with _ | ⟨op, _ | ⟨controls, _ | ⟨part, parts⟩⟩⟩
  · constructor
    · exact nofun
    · intro h
      obtain ⟨id, -, h⟩ := bind_eq_ok_iff.mp h
      cases h
  · exact Iff.rfl
  · exact Iff.rfl
  · constructor
    · exact nofun
    · intro h
      obtain ⟨id, -, h⟩ := bind_eq_ok_iff.mp h
      obtain ⟨op, -, h⟩ := bind_eq_ok_iff.mp h
      obtain ⟨controls, -, h⟩ := bind_eq_ok_iff.mp h
      cases h

/-! ## Reading the parts -/

/-- Reads the number of a message. -/
def readId : Reading Int32 :=
  Reading.explain "cannot decode the message ID" Reading.int32 >>= fun id =>
    Reading.ofExcept (checkId id)

/-- Reads the operation of a message. -/
def readOp (id : Int32) : Reading Operation :=
  Reading.explain s!"cannot decode the operation of message {id}" Operation.read

/-- Closes a message behind its parts. -/
def readEnd (opened : Opened) (message : Message) : Reading Message :=
  Reading.explain s!"cannot close message {message.id}" (Reading.closeSequence opened) >>= fun _ =>
    pure message

/-- Reads the parts of a message that has been opened. -/
def readParts (opened : Opened) : Reading Message :=
  readId >>= fun id => readOp id >>= fun op =>
    Reading.ifMore opened (readControls id) [] fun controls => readEnd opened ⟨id, op, controls⟩

/-- A sequence is opened for a message, and the parts are read in it. -/
theorem read_eq :
    read = Reading.explain "cannot read the LDAP message sequence" Reading.openSequence >>=
      readParts := by
  rw [read]
  congr 1
  funext opened
  rw [readParts, readId, bind_assoc]
  rfl

/-- The number is read as it is decoded from its element. -/
theorem looks_readId (r : Reader) : Looks readId decodeId r := by
  have hint32 : Looks Reading.int32 Element.asInt32 r := by
    rw [Reading.int32_eq_elementAs]
    exact .of_elementAs Element.asInt32 r
  exact (hint32.explain _ _).check checkId

/-- The operation is read as it is decoded from its element, while a sequence may be opened. -/
theorem looks_readOp (hdepth : r.ends.length < r.limits.depth) (id : Int32) :
    Looks (readOp id) (decodeOp id) r :=
  (Operation.looks_read hdepth).explain _ _

/-- The controls are read as they are decoded from their element. -/
theorem looks_readControls (id : Int32) (r : Reader) :
    Looks (readControls id) (decodeControls id) r :=
  ((Looks.of_element r).explain _ "").check (decodeControls id)

section Inside

variable {outer : Reader} {stop : Nat} {tag : UInt8}

/-- Behind the parts the message is closed exactly if no element is left. -/
theorem agrees_readEnd (hin : Reader.Inside outer stop r) (message : Message) :
    Agrees (readEnd ⟨tag, stop⟩ message r)
      (Element.elementsOf r.window >>= Element.atEnd message)
      { outer with position := stop } := by
  refine Reader.Inside.agrees_atEnd ?_ ?_
  · intro hw
    exact Reading.bind_of_ok (Reading.explain_of_ok _ (hin.closeSequence_of_nil hw)) _
  · intro hw
    obtain ⟨failure, hclose⟩ := hin.closeSequence_of_ne_nil hw
    exact ⟨_, r, Reading.bind_of_error (Reading.explain_of_error _ hclose) _⟩

/-- The parts of a message are read as they are taken from their elements. -/
theorem agrees_readParts (hin : Reader.Inside outer stop r)
    (hdepth : outer.ends.length + 1 < outer.limits.depth) :
    Agrees (readParts ⟨tag, stop⟩ r) (Element.elementsOf r.window >>= ofParts)
      { outer with position := stop } := by
  refine hin.agrees_next (looks_readId r) ?_ (fun _ => ⟨_, rfl⟩) ofParts_cons
  intro id r' hin'
  have hdepth' : r'.ends.length < r'.limits.depth := by
    rw [hin'.ends_eq, hin'.limits_eq, List.length_cons]
    exact hdepth
  refine hin'.agrees_next (looks_readOp hdepth' id) ?_ (fun _ => ⟨_, rfl⟩) (fun _ _ _ => Iff.rfl)
  intro op r'' hin''
  exact hin''.agrees_ifMore (looks_readControls id r'')
    (fun controls _ hs => agrees_readEnd hs ⟨id, op, controls⟩) (fun _ => Iff.rfl)
    (fun _ _ _ => Iff.rfl)

end Inside

/-! ## Whole messages -/

/-- A message of a constructed type is read from a stream as it is taken from its element. -/
theorem agrees_read (hdepth : r.ends.length + 1 < r.limits.depth)
    (he : Reading.element r = (.ok e, r')) (hc : isConstructed e.tag = true) :
    Agrees (read r) (decode e) r' := by
  obtain ⟨head, hd, hs, rfl, rfl⟩ := Reading.element_eq_ok_iff.mp he
  obtain ⟨inner, hopen, hin, hw⟩ :=
    Reading.openSequence_inside (Nat.lt_of_succ_lt hdepth) hd hs hc
  rw [read_eq, Reading.bind_of_ok (Reading.explain_of_ok _ hopen), Reader.advance_add]
  refine (agrees_readParts hin hdepth).congr fun message => ?_
  rw [decode_eq_ok_iff, hw]

/-- A message that is read from a stream is an element of a constructed type. -/
theorem element_of_read (hdepth : r.ends.length < r.limits.depth) {message : Message} {s : Reader}
    (h : read r = (.ok message, s)) :
    ∃ e r', Reading.element r = (.ok e, r') ∧ isConstructed e.tag = true := by
  rw [read_eq] at h
  rcases Reading.header_cases r with ⟨failure, hf⟩ | ⟨head, hd, hs⟩
  · have hopen := Reading.openSequence_of_header_error hdepth hf
    rw [Reading.bind_of_error (Reading.explain_of_error _ hopen)] at h
    cases h
  · refine ⟨_, _, Reading.element_of_decode hd hs, ?_⟩
    cases hc : isConstructed head.tag with
    | true => rfl
    | false =>
        have hopen := Reading.openSequence_of_primitive hdepth hd hs hc
        rw [Reading.bind_of_error (Reading.explain_of_error _ hopen)] at h
        cases h

/-- **Streams and octets agree on messages** but for the outermost type. Octets are read as a
message from a stream, with nothing left of them, exactly if they are taken for that message as a
whole and the type at their front is constructed. -/
theorem read_iff_ofOctets (octets : Octets) (message : Message)
    (hsize : octets.length ≤ Limits.default.elementSize) :
    (∃ s, read (Reader.ofOctets octets .default) = (.ok message, s) ∧ s.remaining = 0) ↔
      ofOctets octets = .ok message ∧
        ∃ tag, octets.head? = some tag ∧ isConstructed tag = true := by
  have hdepth : (Reader.ofOctets octets .default).ends.length + 1 <
      (Reader.ofOctets octets .default).limits.depth := by
    change 0 + 1 < 64
    omega
  have hpeek {e : Element} {s : Reader}
      (he : Reading.element (Reader.ofOctets octets .default) = (.ok e, s)) :
      octets.head? = some e.tag := by
    rw [← Reader.window_ofOctets octets .default]
    exact Reading.peek?_of_element he
  constructor
  · rintro ⟨s, hread, hs⟩
    obtain ⟨e, s', he, hc⟩ := element_of_read (Nat.lt_of_succ_lt hdepth) hread
    obtain ⟨hdecode, rfl⟩ := ((agrees_read hdepth he hc).eq_ok_iff message s).mp hread
    refine ⟨?_, e.tag, hpeek he, hc⟩
    rw [ofOctets, (Reading.element_ofOctets_iff hsize).mp ⟨s, he, hs⟩, explain_ok, ok_bind]
    exact hdecode
  · rintro ⟨hof, tag, htag, hc⟩
    obtain ⟨e, hexplain, hdecode⟩ := bind_eq_ok_iff.mp hof
    obtain ⟨s, he, hs⟩ := (Reading.element_ofOctets_iff hsize).mpr (explain_eq_ok_iff.mp hexplain)
    obtain rfl := Option.some.inj (htag.symm.trans (hpeek he))
    exact ⟨s, ((agrees_read hdepth he hc).eq_ok_iff message s).mpr ⟨hdecode, rfl⟩, hs⟩

/-- A message with no controls that asks to end the session. -/
def unbinding : Message := ⟨5, ⟨.unbindRequest, ()⟩, []⟩

/-- The octets of that message under another type are taken for it as well. -/
theorem ofOctets_unbinding {tag : UInt8} (ht : Ber.isMultiOctet tag = false) :
    ofOctets [tag, 0x05, 0x02, 0x01, 0x05, 0x42, 0x00] = .ok unbinding := by
  have helement : Element.decode [tag, 0x05, 0x02, 0x01, 0x05, 0x42, 0x00] =
      .ok ⟨tag, [0x02, 0x01, 0x05, 0x42, 0x00]⟩ := by
    have hd : Header.decode [tag, 0x05, 0x02, 0x01, 0x05, 0x42, 0x00] = .ok ⟨tag, 2, 5⟩ := by
      rw [Header.decode, ht]
      rfl
    rw [Element.decode_eq_ok_iff, Element.split_of_decode hd]
    rfl
  have hparts : Element.elementsOf [0x02, 0x01, 0x05, 0x42, 0x00] =
      .ok [⟨0x02, [0x05]⟩, ⟨0x42, []⟩] := by
    have hid : Element.split [0x02, 0x01, 0x05, 0x42, 0x00] =
        .ok (⟨0x02, [0x05]⟩, [0x42, 0x00]) := rfl
    have hop : Element.split [0x42, 0x00] = .ok (⟨0x42, []⟩, []) := rfl
    rw [Element.elementsOf_of_split hid, Element.elementsOf_of_split hop, Element.elementsOf_nil]
    rfl
  rw [ofOctets, helement, explain_ok, ok_bind, decode_eq_ok_iff, hparts, ok_bind]
  rfl

/-- A message from the stream is the one that its octets are, with nothing left behind it. -/
theorem read_iff_ofOctets_unbinding :
    [0x30, 0x05, 0x02, 0x01, 0x05, 0x42, 0x00].length ≤ Limits.default.elementSize ∧
      ∃ s, read (Reader.ofOctets [0x30, 0x05, 0x02, 0x01, 0x05, 0x42, 0x00] .default) =
        (.ok unbinding, s) ∧ s.remaining = 0 := by
  have hsize : [0x30, 0x05, 0x02, 0x01, 0x05, 0x42, 0x00].length ≤ Limits.default.elementSize := by
    decide
  exact ⟨hsize, (read_iff_ofOctets _ unbinding hsize).mpr
    ⟨ofOctets_unbinding (by decide), 0x30, rfl, by decide⟩⟩

/-- As a whole, octets are taken for a message although their type is not that of a sequence. -/
theorem ofOctets_primitive_not_read :
    ofOctets [0x04, 0x05, 0x02, 0x01, 0x05, 0x42, 0x00] = .ok unbinding ∧
      ¬ ∃ s, read (Reader.ofOctets [0x04, 0x05, 0x02, 0x01, 0x05, 0x42, 0x00] .default) =
        (.ok unbinding, s) ∧ s.remaining = 0 := by
  refine ⟨ofOctets_unbinding (by decide), ?_⟩
  rintro ⟨s, hread, -⟩
  obtain ⟨e, s', he, hc⟩ := element_of_read (by decide) hread
  obtain ⟨head, hd, -, rfl, -⟩ := Reading.element_eq_ok_iff.mp he
  cases hd
  cases hc

end Message

end DirectoryAccess
