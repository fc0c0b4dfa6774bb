import DirectoryAccess.Operation.Stream
import DirectoryAccess.Proofs.Ber.Sequence
import DirectoryAccess.Proofs.Operation.Codec

/-!
# Operations read from a stream and from elements

Reading an operation from a reader and taking it from the element that stands
there come to the same. For most kinds this is how they are read. A request to
delete an entry and an extended request are read piece by piece, which is told
from their type octet; an extended request is then opened as a sequence, and each
of its parts is read inside it.
-/

namespace DirectoryAccess

open Ber (Element Header Opened Reader Reading isConstructed)
open Ber.Reading (Agrees Looks)

variable {r r' : Reader} {e : Element}

/-! ## Reading piece by piece -/

namespace ExtendedRequest

/-- Reads the name of the operation. -/
def readOid : Reading Oid :=
  Reading.explain "cannot decode the request OID" do
    let name ← Reading.text
    Reading.ofExcept (Oid.ofString name)

/-- Reads the value of the operation. -/
def readValue : Reading (Option Octets) :=
  some <$> Reading.explain "cannot decode the request value" Reading.octets

/-- Closes a request behind its parts. -/
def readEnd (opened : Opened) (request : ExtendedRequest) : Reading ExtendedRequest := do
  if ← Reading.view (·.hasMore opened) then
    throw (.malformed "extended request must have 1 or 2 elements, got more than 2")
  Reading.closeSequence opened
  return request

theorem readParts_eq :
    readParts = Reading.openSequence >>= fun opened => readOid >>= fun oid =>
      Reading.ifMore opened readValue none fun value => readEnd opened ⟨oid, value⟩ := rfl

/-- The request whose name and value some elements are. -/
def ofParts : List Element → Except Failure ExtendedRequest
  | [oid] => do return ⟨← decodeOid oid, none⟩
  | [oid, value] => do return ⟨← decodeOid oid, some value.value⟩
  | parts => .error (.elementCount "extended request" "1 or 2" parts.length)

/-- The request of the given name whose value some elements are, if there is one. -/
def ofValue (oid : Oid) : List Element → Except Failure ExtendedRequest
  | [] => .ok ⟨oid, none⟩
  | value :: parts => Element.atEnd ⟨oid, some value.value⟩ parts

theorem decode_eq (e : Element) : decode e = Element.elementsOf e.value >>= ofParts := rfl

theorem ofParts_cons (e : Element) (parts : List Element) (request : ExtendedRequest) :
    ofParts (e :: parts) = .ok request ↔
      (decodeOid e >>= fun oid => ofValue oid parts) = .ok request := by
  rcases parts with _ | ⟨value, _ | ⟨part, parts⟩⟩
  · exact Iff.rfl
  · exact Iff.rfl
  · cases decodeOid e with
    | ok oid => exact ⟨nofun, nofun⟩
    | error failure => exact ⟨nofun, nofun⟩

/-- The name is read as it is decoded from its element. -/
theorem looks_readOid (r : Reader) : Looks readOid decodeOid r := by
  have htext : Looks Reading.text Element.asText r := by
    rw [Reading.text_eq_elementAs]
    exact .of_elementAs Element.asText r
  exact (htext.check Oid.ofString).explain _ _

/-- The value is read as it is decoded from its element. -/
theorem looks_readValue (r : Reader) : Looks readValue (fun e => .ok (some e.value)) r := by
  have hoctets : Looks Reading.octets (fun e => .ok e.value) r := .of_elementAs _ r
  exact (hoctets.explain _ "").map some

/-- A request is closed where nothing is left of it. -/
theorem readEnd_of_nil {outer : Reader} {stop : Nat} {tag : UInt8}
    (hin : Reader.Inside outer stop r) (hw : r.window = []) (request : ExtendedRequest) :
    readEnd ⟨tag, stop⟩ request r = (.ok request, { outer with position := stop }) := by
  rw [readEnd, Reading.view_bind_apply, hin.hasMore_eq, hw]
  exact Reading.bind_of_ok (hin.closeSequence_of_nil hw) _

/-- A request of which something is left is refused where the reader stands. -/
theorem readEnd_of_ne_nil {outer : Reader} {stop : Nat} {tag : UInt8}
    (hin : Reader.Inside outer stop r) (hw : r.window ≠ []) (request : ExtendedRequest) :
    ∃ failure, readEnd ⟨tag, stop⟩ request r = (.error failure, r) := by
  obtain ⟨b, octets, hw⟩ := List.exists_cons_of_ne_nil hw
  rw [readEnd, Reading.view_bind_apply, hin.hasMore_eq, hw]
  exact ⟨_, Reading.bind_of_error (Reading.throw_apply _ r) _⟩

/-- Behind the parts the request is closed exactly if no element is left. -/
theorem agrees_readEnd {outer : Reader} {stop : Nat} {tag : UInt8}
    (hin : Reader.Inside outer stop r) (request : ExtendedRequest) :
    Agrees (readEnd ⟨tag, stop⟩ request r)
      (Element.elementsOf r.window >>= Element.atEnd request)
      { outer with position := stop } := by
  refine Reader.Inside.agrees_atEnd (fun hw => readEnd_of_nil hin hw request) ?_
  intro hw
  obtain ⟨failure, hrefused⟩ := readEnd_of_ne_nil hin hw request
  exact ⟨failure, r, hrefused⟩

/-- A request that is read piece by piece is the one that its element is. -/
theorem agrees_readParts (hdepth : r.ends.length < r.limits.depth)
    (he : Reading.element r = (.ok e, r')) (hc : isConstructed e.tag = true) :
    Agrees (readParts r) (decode e) r' := by
  obtain ⟨head, hd, hs, rfl, rfl⟩ := Reading.element_eq_ok_iff.mp he
  obtain ⟨inner, hopen, hin, hw⟩ := Reading.openSequence_inside hdepth hd hs hc
  rw [readParts_eq, Reading.bind_of_ok hopen, decode_eq, ← hw, Reader.advance_add]
  refine hin.agrees_next (looks_readOid inner) ?_ (fun _ => ⟨_, rfl⟩) ofParts_cons
  intro oid r' hin'
  exact hin'.agrees_ifMore (looks_readValue r')
    (fun value _ hin'' => agrees_readEnd hin'' ⟨oid, value⟩) (fun _ => Iff.rfl)
    (fun _ _ _ => Iff.rfl)

end ExtendedRequest

/-! ## Operations of a given kind -/

/-- An operation that is read piece by piece is the one that its element is, if the pieces are
what an element of its type is made of. -/
theorem looks_readPieces {kind : Kind} {pieces : Reading (Body kind)}
    (hagrees : ∀ e r', Reading.element r = (.ok e, r') → e.tag = kind.tag →
      Agrees (pieces r) (Body.decode kind e) r')
    (hfails : ∀ failure r', Reading.element r = (.error failure, r') →
      ∃ cause s, pieces r = (.error cause, s)) :
    Looks (readPieces kind pieces) (decodeAs kind) r := by
  constructor
  · intro e r' he
    rw [readPieces, Reading.view_bind_apply, Reading.peek?_of_element he, decodeAs]
    by_cases ht : e.tag = kind.tag
    · rw [if_pos (congrArg some ht), if_pos ht]
      exact (hagrees e r' he ht).explain _ _
    · rw [if_neg (fun h => ht (Option.some.inj h)), if_neg ht]
      exact .error _ _ r rfl rfl
  · intro failure r' he
    obtain ⟨cause, s, hp⟩ := hfails failure r' he
    rw [readPieces, Reading.view_bind_apply]
    split
    · exact ⟨_, s, Reading.explain_of_error _ hp⟩
    · exact ⟨_, r, rfl⟩

/-- Reads an operation through its element. -/
def readWhole (kind : Kind) : Reading (Body kind) :=
  Reading.explain s!"cannot read {kind.name}" Reading.element >>= fun element =>
    Reading.ofExcept (decodeAs kind element)

/-- Operations are read through their element, but for extended requests and deletions. -/
theorem readAs_eq_readWhole {kind : Kind} (hext : kind ≠ .extendedRequest)
    (hdel : kind ≠ .deleteRequest) : readAs kind = readWhole kind := by
  cases kind with
  | extendedRequest => exact absurd rfl hext
  | deleteRequest => exact absurd rfl hdel
  | _ => rfl

/-- An operation that is read through its element is read as that is decoded. -/
theorem looks_readWhole (kind : Kind) (r : Reader) : Looks (readWhole kind) (decodeAs kind) r :=
  ((Looks.of_element r).explain _ "").check (decodeAs kind)

/-- An operation of some kind is read as it is taken from the next element. -/
theorem looks_readAs (hdepth : r.ends.length < r.limits.depth) (kind : Kind) :
    Looks (readAs kind) (decodeAs kind) r := by
  by_cases hext : kind = .extendedRequest
  · subst hext
    refine looks_readPieces ?_ ?_
    · intro e r' he ht
      exact ExtendedRequest.agrees_readParts hdepth he (by rw [ht]; rfl)
    · intro failure r' he
      obtain ⟨hhead, -⟩ := Reading.header_of_element_error he
      have hopen := Reading.openSequence_of_header_error hdepth hhead
      exact ⟨failure, r, Reading.bind_of_error hopen _⟩
  by_cases hdel : kind = .deleteRequest
  · subst hdel
    have htext := Looks.of_elementAs Element.asText r
    rw [← Reading.text_eq_elementAs] at htext
    refine looks_readPieces ?_ htext.fails
    intro e r' he _
    exact htext.agrees e r' he
  rw [readAs_eq_readWhole hext hdel]
  exact looks_readWhole kind r

/-! ## Operations of the kind that they say -/

namespace Operation

/-- An operation is read as it is taken from the next element. -/
theorem looks_read (hdepth : r.ends.length < r.limits.depth) : Looks read decode r := by
  constructor
  · intro e r' he
    rw [read, Reading.view_bind_apply, Reading.peek?_of_element he, decode]
    cases hkind : Kind.ofTag? e.tag with
    | none =>
        simp only [hkind]
        exact .error _ _ r rfl rfl
    | some kind =>
        simp only [hkind]
        exact ((looks_readAs hdepth kind).agrees e r' he).map _
  · intro failure r' he
    rw [read, Reading.view_bind_apply]
    cases r.peek? with
    | none => exact ⟨_, r, rfl⟩
    | some tag =>
        cases hkind : Kind.ofTag? tag with
        | none =>
            simp only [hkind]
            exact ⟨_, r, rfl⟩
        | some kind =>
            simp only [hkind]
            exact ((looks_readAs hdepth kind).map _).fails failure r' he

/-- **Streams and elements agree on operations.** Where no element can be read, no operation of any
kind can. Where one can be read, it is an operation, of a given kind or of the kind that it says,
exactly if that operation is read from the stream; the reader then stands behind the element and
has the same sequences open as before. -/
theorem read_iff_decode_element (r : Reader) (hdepth : r.ends.length < r.limits.depth) :
    (∀ failure s, Reading.element r = (.error failure, s) →
      (∀ kind, ∃ cause s, readAs kind r = (.error cause, s)) ∧
        ∃ cause s, read r = (.error cause, s)) ∧
    ∀ e s, Reading.element r = (.ok e, s) →
      (∀ kind body s', readAs kind r = (.ok body, s') ↔ decodeAs kind e = .ok body ∧ s' = s) ∧
      (∀ op s', read r = (.ok op, s') ↔ decode e = .ok op ∧ s' = s) ∧
      ∃ head, Header.decode r.window = .ok head ∧
        e = ⟨head.tag, (r.input.drop (r.position + head.width)).take head.size⟩ ∧
        s = { r with position := r.position + head.width + head.size } := by
  constructor
  · intro failure s he
    exact ⟨fun kind => (looks_readAs hdepth kind).fails failure s he,
      (looks_read hdepth).fails failure s he⟩
  · intro e s he
    refine ⟨fun kind => ((looks_readAs hdepth kind).agrees e s he).eq_ok_iff,
      ((looks_read hdepth).agrees e s he).eq_ok_iff, ?_⟩
    obtain ⟨head, hd, -, rfl, rfl⟩ := Reading.element_eq_ok_iff.mp he
    refine ⟨head, hd, ?_, Reader.advance_add r _ _⟩
    rw [Reader.take_drop_window (Header.le_length_of_decode hd).2]

/-- A reader in a sequence, in front of an extended request with a null behind it. -/
def nestedRequest : Reader :=
  ⟨[0x30, 0x0B, 0x77, 0x07, 0x80, 0x03, 0x31, 0x2E, 0x32, 0x81, 0x00, 0x05, 0x00], 2, [13],
    .default⟩

/-- A request in front of other elements is read up to its own end, and is not taken for one of
another type. -/
theorem read_iff_decode_element_nestedRequest :
    nestedRequest.ends.length < nestedRequest.limits.depth ∧
      readAs .extendedRequest nestedRequest =
        (.ok ⟨⟨"1.2", by decide⟩, some []⟩, nestedRequest.advance 9) ∧
      ∀ dn s, readAs .deleteRequest nestedRequest ≠ (.ok dn, s) := by
  have hdepth : nestedRequest.ends.length < nestedRequest.limits.depth := by decide
  have he : Reading.element nestedRequest =
      (.ok (ExtendedRequest.encode ⟨⟨"1.2", by decide⟩, some []⟩), nestedRequest.advance 9) :=
    Reading.element_eq_ok_iff.mpr ⟨⟨0x77, 2, 7⟩, rfl, by decide, by decide +kernel, rfl⟩
  obtain ⟨hkind, -, -⟩ := (read_iff_decode_element nestedRequest hdepth).2 _ _ he
  refine ⟨hdepth, (hkind .extendedRequest _ _).mpr ⟨?_, rfl⟩, ?_⟩
  · exact (decodeAs_encode_eq_ok_iff .extendedRequest _ _ (by decide +kernel)).mpr ⟨rfl, trivial⟩
  · intro dn s h
    have hdn := ((hkind .deleteRequest dn s).mp h).1
    cases hdn

end Operation

end DirectoryAccess
