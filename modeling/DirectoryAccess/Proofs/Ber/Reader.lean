import DirectoryAccess.Ber.Reader
import DirectoryAccess.Proofs.Answer
import DirectoryAccess.Proofs.Ber.Element

/-!
# Steps of a reader

What a step of reading does is settled by the header at the front of the window.
The two steps that consume something, `Reading.header` and `Reading.element`, are
described by it once (`header_of_decode`, `element_of_decode`), and so is the step
that opens a sequence. The steps that read a value are the step that reads an
element with a view of the element behind it.
-/

namespace DirectoryAccess.Ber

/-! ## Composed steps -/

namespace Reading

variable {α β : Type} {step : Reading α} {r r' : Reader} {a : α} {failure : Failure}

/-- A reading that succeeds hands its value and its reader on. -/
theorem bind_of_ok (h : step r = (.ok a, r')) (f : α → Reading β) : (step >>= f) r = f a r' :=
  bind_apply_of_ok h f

/-- A reading that fails is not followed by another one. -/
theorem bind_of_error (h : step r = (.error failure, r')) (f : α → Reading β) :
    (step >>= f) r = (.error failure, r') :=
  bind_apply_of_error h f

/-- A composed step that succeeds goes on from the answer of its first part. -/
theorem exists_of_bind_eq_ok {f : α → Reading β} {b : β} (h : (step >>= f) r = (.ok b, r')) :
    ∃ a s, step r = (.ok a, s) ∧ f a s = (.ok b, r') := by
  rcases hstep : step r with ⟨answer, s⟩
  cases answer with
  | ok a => exact ⟨a, s, rfl, (bind_of_ok hstep f).symm.trans h⟩
  | error failure =>
      rw [bind_of_error hstep] at h
      cases h

/-- A reading that succeeds still does with its value changed. -/
theorem map_of_ok (h : step r = (.ok a, r')) (f : α → β) : (f <$> step) r = (.ok (f a), r') := by
  rw [map_apply, h]
  rfl

/-- A reading that fails does so whatever would be done with its value. -/
theorem map_of_error (h : step r = (.error failure, r')) (f : α → β) :
    (f <$> step) r = (.error failure, r') := by
  rw [map_apply, h]
  rfl

@[simp] theorem throw_apply (failure : Failure) (r : Reader) :
    (throw failure : Reading α) r = (.error failure, r) := rfl

@[simp] theorem ofExcept_apply (answer : Except Failure α) (r : Reader) :
    ofExcept answer r = (answer, r) := rfl

@[simp] theorem fail_apply (fault : Fault) (r : Reader) :
    (fail fault : Reading α) r = (.error (fault : Failure), r) := rfl

/-- A reading that succeeds needs no explanation. -/
theorem explain_of_ok (message : String) (h : step r = (.ok a, r')) :
    explain message step r = (.ok a, r') := by
  simp only [explain, h, explain_ok]

/-- A reading that fails leaves its reader where it does without the explanation. -/
theorem explain_of_error (message : String) (h : step r = (.error failure, r')) :
    explain message step r = (.error (.explained message failure), r') := by
  simp only [explain, h, explain_error]

/-- What is done with the answer of a view. -/
@[simp] theorem view_bind_apply (f : Reader → α) (g : α → Reading β) (r : Reader) :
    (view f >>= g) r = g (f r) r := rfl

end Reading

/-! ## Windows -/

namespace Reader

/-- The reader some octets further on. -/
def advance (r : Reader) (count : Nat) : Reader := { r with position := r.position + count }

@[simp] theorem advance_input (r : Reader) (count : Nat) : (r.advance count).input = r.input := rfl

@[simp] theorem advance_position (r : Reader) (count : Nat) :
    (r.advance count).position = r.position + count := rfl

@[simp] theorem advance_ends (r : Reader) (count : Nat) : (r.advance count).ends = r.ends := rfl

@[simp] theorem advance_limits (r : Reader) (count : Nat) :
    (r.advance count).limits = r.limits := rfl

@[simp] theorem advance_advance (r : Reader) (m n : Nat) :
    (r.advance m).advance n = r.advance (m + n) := by
  simp only [advance, Nat.add_assoc]

/-- Going on by one number of octets and then another, written out. -/
theorem advance_add (r : Reader) (m n : Nat) :
    r.advance (m + n) = { r with position := r.position + m + n } := by
  rw [advance, Nat.add_assoc]

@[simp] theorem advance_window (r : Reader) (count : Nat) :
    (r.advance count).window = r.window.drop count := by
  simp only [window, advance, limit, List.drop_drop]

/-- The window ends where the innermost sequence does, or the octets. -/
theorem length_window (r : Reader) :
    r.window.length = min r.limit r.input.length - r.position := by
  rw [window, List.length_drop, List.length_take]

/-- Octets that lie in the window are the same in the input. -/
theorem take_drop_window {r : Reader} {m n : Nat} (h : m + n ≤ r.window.length) :
    (r.input.drop (r.position + m)).take n = (r.window.drop m).take n := by
  rw [length_window] at h
  rw [window, List.drop_drop, List.drop_take, List.take_take]
  congr 1
  omega

/-- A reader at the front of some octets sees all of them. -/
theorem window_ofOctets (input : Octets) (limits : Limits) :
    (ofOctets input limits).window = input := by
  simp only [window, ofOctets, limit, List.headD_nil, List.take_length, List.drop_zero]

end Reader

/-! ## Headers and elements -/

namespace Reading

open Reader

variable {r : Reader} {head : Header} {failure : Failure}

/-- A reader whose window does not begin with a header stays where it is. -/
theorem header_of_error (h : Header.decode r.window = .error failure) :
    header r = (.error failure, r) := by
  simp only [header, h]

/-- A reader that is in front of too large a value stays where it is. -/
theorem header_of_large (h : Header.decode r.window = .ok head)
    (hs : r.limits.elementSize < head.size) :
    header r = (.error (Fault.elementSize head.size r.limits.elementSize), r) := by
  simp only [header, h, if_pos hs]

/-- A reader goes on behind a header whose value is not too large. -/
theorem header_of_decode (h : Header.decode r.window = .ok head)
    (hs : head.size ≤ r.limits.elementSize) :
    header r = (.ok head, r.advance head.width) := by
  simp only [header, h, if_neg (Nat.not_lt.mpr hs), advance]

/-- The next element is what the header at the front of the window announces. -/
theorem element_of_decode (h : Header.decode r.window = .ok head)
    (hs : head.size ≤ r.limits.elementSize) :
    element r = (.ok ⟨head.tag, (r.window.drop head.width).take head.size⟩,
      r.advance (head.width + head.size)) := by
  have hle := (Header.le_length_of_decode h).2
  rw [element, bind_of_ok (header_of_decode h hs), advance_input, advance_position,
    take_drop_window hle, ← advance_advance]
  rfl

/-- Either no header can be read, and the reader stays, or the next element is announced by the
header of the window and is not too large. -/
theorem header_cases (r : Reader) :
    (∃ failure, header r = (.error failure, r)) ∨
      ∃ head, Header.decode r.window = .ok head ∧ head.size ≤ r.limits.elementSize := by
  cases h : Header.decode r.window with
  | error failure => exact .inl ⟨failure, header_of_error h⟩
  | ok head =>
      rcases Nat.lt_or_ge r.limits.elementSize head.size with hs | hs
      · exact .inl ⟨_, header_of_large h hs⟩
      · exact .inr ⟨head, rfl, hs⟩

/-- Without a header there is no element. -/
theorem element_of_header_error (h : header r = (.error failure, r)) :
    element r = (.error failure, r) := by
  rw [element, bind_of_error h]

/-- An element is read exactly where its header is at the front of the window and announces no
value that is too large. -/
theorem element_eq_ok_iff {e : Element} {r' : Reader} :
    element r = (.ok e, r') ↔ ∃ head, Header.decode r.window = .ok head ∧
      head.size ≤ r.limits.elementSize ∧
      e = ⟨head.tag, (r.window.drop head.width).take head.size⟩ ∧
      r' = r.advance (head.width + head.size) := by
  constructor
  · intro h
    rcases header_cases r with ⟨failure, hf⟩ | ⟨head, hd, hs⟩
    · rw [element_of_header_error hf] at h
      cases h
    · rw [element_of_decode hd hs] at h
      cases h
      exact ⟨head, hd, hs, rfl, rfl⟩
  · rintro ⟨head, hd, hs, rfl, rfl⟩
    exact element_of_decode hd hs

/-- The next element is the one whose octets are at the front of the window. -/
theorem element_of_window {e : Element} {rest : Octets} (ht : isMultiOctet e.tag = false)
    (hs : e.value.length < 2 ^ 32) (hlimit : e.value.length ≤ r.limits.elementSize)
    (hw : r.window = e.encode ++ rest) : element r = (.ok e, r.advance e.encode.length) := by
  have hd := Header.decode_encode_append ht hs rest
  have hsplit := Element.split_encode_append ht hs rest
  rw [Element.split_of_decode hd] at hsplit
  rw [← hw] at hd hsplit
  rw [element_of_decode hd hlimit, (Prod.mk.inj (Except.ok.inj hsplit)).1, Element.length_encode]

/-- The type octet of the next element is the one that the reader shows beforehand. -/
theorem peek?_of_element {e : Element} {r' : Reader} (h : element r = (.ok e, r')) :
    r.peek? = some e.tag := by
  obtain ⟨head, hd, -, rfl, -⟩ := element_eq_ok_iff.mp h
  exact Header.head?_of_decode hd

/-- Where no element can be read, the reader stays, and no header can be read either. -/
theorem header_of_element_error {r' : Reader} (h : element r = (.error failure, r')) :
    header r = (.error failure, r) ∧ r' = r := by
  rcases header_cases r with ⟨cause, hf⟩ | ⟨head, hd, hs⟩
  · rw [element_of_header_error hf] at h
    cases h
    exact ⟨hf, rfl⟩
  · rw [element_of_decode hd hs] at h
    cases h

/-- The only element of some octets is what is read first from them, with nothing left then. -/
theorem element_ofOctets_iff {octets : Octets} {limits : Limits} {e : Element}
    (hsize : octets.length ≤ limits.elementSize) :
    (∃ s, element (ofOctets octets limits) = (.ok e, s) ∧ s.remaining = 0) ↔
      Element.decode octets = .ok e := by
  have hrest (head : Header) : ((ofOctets octets limits).advance (head.width + head.size)).remaining
      = (octets.drop (head.width + head.size)).length := by
    simp only [remaining, limit, advance, ofOctets, List.headD_nil, List.length_drop, Nat.zero_add]
  rw [Element.decode_eq_ok_iff]
  constructor
  · rintro ⟨s, he, hs⟩
    obtain ⟨head, hd, -, rfl, rfl⟩ := element_eq_ok_iff.mp he
    rw [window_ofOctets] at hd ⊢
    rw [hrest, List.length_eq_zero_iff] at hs
    rw [Element.split_of_decode hd, hs]
  · intro hsplit
    cases hd : Header.decode octets with
    | error failure =>
        rw [Element.split_of_decode_error hd] at hsplit
        cases hsplit
    | ok head =>
        rw [Element.split_of_decode hd] at hsplit
        obtain ⟨rfl, hnil⟩ := Prod.mk.inj (Except.ok.inj hsplit)
        have hle := (Header.le_length_of_decode hd).2
        have hhead : head.size ≤ (ofOctets octets limits).limits.elementSize := by
          change head.size ≤ limits.elementSize
          omega
        refine ⟨_, element_eq_ok_iff.mpr ⟨head, ?_, hhead, ?_, rfl⟩, ?_⟩
        · rw [window_ofOctets]
          exact hd
        · rw [window_ofOctets]
        · rw [hrest, hnil]
          rfl

/-! ## Views of an element -/

variable {α : Type} {view : Element → Except Failure α}

/-- Reads the next element and looks at it. -/
def elementAs (view : Element → Except Failure α) : Reading α :=
  element >>= fun e => ofExcept (view e)

/-- An element that is read is given as what the view makes of it. -/
theorem elementAs_of_element {e : Element} {r' : Reader} (h : element r = (.ok e, r')) :
    elementAs view r = (view e, r') := by
  rw [elementAs, bind_of_ok h, ofExcept_apply]

/-- An element that is not read is not viewed. -/
theorem elementAs_of_element_error {r' : Reader} (h : element r = (.error failure, r')) :
    elementAs view r = (.error failure, r') := by
  rw [elementAs, bind_of_error h]

/-- What is made of a view of the next element is a view of it too. -/
theorem elementAs_bind {β : Type} (f : α → Except Failure β) :
    (elementAs view >>= fun a => ofExcept (f a)) = elementAs fun e => view e >>= f := by
  funext r
  cases h : element r with
  | mk answer r' =>
      cases answer with
      | error failure =>
          rw [elementAs_of_element_error h, bind_of_error (elementAs_of_element_error h)]
      | ok e =>
          rw [elementAs_of_element h]
          cases hv : view e with
          | ok a =>
              rw [bind_of_ok ((elementAs_of_element h).trans (by rw [hv]))]
              rfl
          | error failure =>
              rw [bind_of_error ((elementAs_of_element h).trans (by rw [hv]))]
              rfl

/-- Octets are the value of an element. -/
theorem octets_eq_elementAs : octets = elementAs fun e => .ok e.value := rfl

/-- A number is an element that is seen as one. -/
theorem integer_eq_elementAs : integer = elementAs Element.asInteger := by
  rw [integer, octets_eq_elementAs, elementAs_bind]
  rfl

/-- A 32-bit number is an element that is seen as one. -/
theorem int32_eq_elementAs : int32 = elementAs Element.asInt32 := by
  rw [int32, integer_eq_elementAs, elementAs_bind]
  rfl

/-- A text is an element that is seen as one. -/
theorem text_eq_elementAs : text = elementAs Element.asText := by
  rw [text, octets_eq_elementAs, elementAs_bind]
  rfl

/-- Reading the next element does no more than to go on in the window. -/
theorem element_advances (r : Reader) : ∃ n ≤ r.window.length, (element r).2 = r.advance n := by
  rcases header_cases r with ⟨failure, hf⟩ | ⟨head, hd, hs⟩
  · exact ⟨0, Nat.zero_le _, congrArg Prod.snd (element_of_header_error hf)⟩
  · exact ⟨_, (Header.le_length_of_decode hd).2, congrArg Prod.snd (element_of_decode hd hs)⟩

/-- Looking at the next element leads as far as reading it. -/
theorem elementAs_snd (view : Element → Except Failure α) (r : Reader) :
    (elementAs view r).2 = (element r).2 := by
  cases he : element r with
  | mk answer r' =>
      cases answer with
      | error failure => rw [elementAs_of_element_error he]
      | ok e => rw [elementAs_of_element he]

/-! ## Sequences -/

/-- A reader in as many sequences as it may be in opens no other one. -/
theorem openSequence_of_depth (h : r.limits.depth ≤ r.ends.length) :
    openSequence r = (.error (Fault.depth r.limits.depth), r) := by
  rw [openSequence, view_bind_apply]
  simp only [id_eq, if_pos h]
  exact bind_of_error (fail_apply _ r) _

/-- A reader that may open a sequence reads a header for it. -/
theorem openSequence_of_header_error (hdepth : r.ends.length < r.limits.depth)
    (h : header r = (.error failure, r)) : openSequence r = (.error failure, r) := by
  rw [openSequence, view_bind_apply]
  simp only [id_eq, if_neg (Nat.not_le.mpr hdepth)]
  exact bind_of_error h _

/-- A sequence of a primitive type is refused when its header has been read. -/
theorem openSequence_of_primitive (hdepth : r.ends.length < r.limits.depth)
    (hd : Header.decode r.window = .ok head) (hs : head.size ≤ r.limits.elementSize)
    (hc : isConstructed head.tag = false) :
    openSequence r = (.error (Fault.primitive head.tag), r.advance head.width) := by
  rw [openSequence, view_bind_apply]
  simp only [id_eq, if_neg (Nat.not_le.mpr hdepth)]
  refine (bind_of_ok (header_of_decode hd hs) _).trans ?_
  simp only [hc, Bool.not_false, if_true]
  exact bind_of_error (fail_apply _ _) _

/-- A sequence is open up to the end that its header announces. -/
theorem openSequence_of_constructed (hdepth : r.ends.length < r.limits.depth)
    (hd : Header.decode r.window = .ok head) (hs : head.size ≤ r.limits.elementSize)
    (hc : isConstructed head.tag = true) :
    openSequence r = (.ok ⟨head.tag, r.position + head.width + head.size⟩,
      { r.advance head.width with ends := (r.position + head.width + head.size) :: r.ends }) := by
  rw [openSequence, view_bind_apply]
  simp only [id_eq, if_neg (Nat.not_le.mpr hdepth)]
  refine (bind_of_ok (header_of_decode hd hs) _).trans ?_
  simp only [hc, Bool.not_true, Bool.false_eq_true, if_false, advance_position, advance_ends]

/-- Either the next element is opened as a sequence, or there is a failure and the reader stays or
stands behind the header of the element. -/
theorem openSequence_cases (r : Reader) :
    (∃ head, Header.decode r.window = .ok head ∧ r.ends.length < r.limits.depth ∧
      openSequence r = (.ok ⟨head.tag, r.position + head.width + head.size⟩,
        { r.advance head.width with
          ends := (r.position + head.width + head.size) :: r.ends })) ∨
    (∃ failure, openSequence r = (.error failure, r)) ∨
    ∃ failure head, Header.decode r.window = .ok head ∧
      openSequence r = (.error failure, r.advance head.width) := by
  rcases Nat.lt_or_ge r.ends.length r.limits.depth with hdepth | hdepth
  · rcases header_cases r with ⟨failure, hf⟩ | ⟨head, hd, hs⟩
    · exact .inr (.inl ⟨failure, openSequence_of_header_error hdepth hf⟩)
    · cases hc : isConstructed head.tag with
      | true => exact .inl ⟨head, hd, hdepth, openSequence_of_constructed hdepth hd hs hc⟩
      | false => exact .inr (.inr ⟨_, head, hd, openSequence_of_primitive hdepth hd hs hc⟩)
  · exact .inr (.inl ⟨_, openSequence_of_depth hdepth⟩)

end Reading

end DirectoryAccess.Ber
