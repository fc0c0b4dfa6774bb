import DirectoryAccess.Proofs.Ber.Sequence

/-!
# Elements read in order

A sequence can be looked at as a whole, which gives the elements of its value, or
it can be opened, read element by element while it has more, and closed
(`Reading.sequence`). The loop of the second way moves on with each element, so it
comes to an end. Inside the sequence it takes off the window what the loop of the
first way takes off the value, and it fails where that fails
(`Reader.Inside.agrees_elements`). So the two ways give the same elements in the
same order, and neither accepts octets that the other refuses.
-/

namespace DirectoryAccess.Ber

/-! ## The elements of an opened sequence -/

namespace Reading

variable {r r' : Reader} {opened : Opened} {e : Element} {failure : Failure}

/-- A reader that has read an element stands further on. -/
theorem position_lt_of_element (h : element r = (.ok e, r')) : r.position < r'.position := by
  obtain ⟨head, hd, -, -, rfl⟩ := element_eq_ok_iff.mp h
  have hwidth := (Header.le_length_of_decode hd).1
  rw [Reader.advance_position]
  omega

/-- Reads elements while the opened sequence has more of them. -/
def elements (opened : Opened) (r : Reader) : Except Failure (List Element) × Reader :=
  if hmore : r.hasMore opened then
    match h : element r with
    | (.error failure, r') => (.error failure, r')
    | (.ok e, r') =>
      have : opened.stop - r'.position < opened.stop - r.position :=
        Nat.sub_lt_sub_left (of_decide_eq_true hmore) (position_lt_of_element h)
      let (rest, r'') := elements opened r'
      (rest.map (e :: ·), r'')
  else (.ok [], r)
termination_by opened.stop - r.position

/-- Without anything left there are no elements. -/
theorem elements_of_not_hasMore (h : r.hasMore opened = false) :
    elements opened r = (.ok [], r) := by
  rw [elements, dif_neg (Bool.not_eq_true _ ▸ h)]

/-- A reader that refuses an element refuses the elements with the same failure. -/
theorem elements_of_element_error (hmore : r.hasMore opened = true)
    (h : element r = (.error failure, r')) : elements opened r = (.error failure, r') := by
  rw [elements, dif_pos hmore]
  split
  · rename_i hs
    rw [h] at hs
    cases hs
    rfl
  · rename_i hs
    rw [h] at hs
    cases hs

/-- An element that is read stands in front of those that are read behind it. -/
theorem elements_of_element (hmore : r.hasMore opened = true) (h : element r = (.ok e, r')) :
    elements opened r =
      ((elements opened r').1.map (e :: ·), (elements opened r').2) := by
  rw [elements, dif_pos hmore]
  split
  · rename_i hs
    rw [h] at hs
    cases hs
  · rename_i hs
    rw [h] at hs
    cases hs
    rfl

/-- Opens the next element as a sequence, reads its elements and closes it behind them. -/
def sequence : Reading (List Element) := do
  let opened ← openSequence
  let children ← elements opened
  closeSequence opened
  return children

end Reading

namespace Reader.Inside

open Reading

variable {outer r : Reader} {stop : Nat} {tag : UInt8}

/-- The elements of what is left of a sequence are read, which leads to its end, because each of
them takes some octets. -/
theorem agrees_elements (hin : Inside outer stop r) :
    Agrees (elements ⟨tag, stop⟩ r) (Element.elementsOf r.window) { r with position := stop } := by
  induction hn : r.window.length using Nat.strongRecOn generalizing r with
  | _ n ih =>
      by_cases hw : r.window = []
      · have hmore : r.hasMore ⟨tag, stop⟩ = false := by
          rw [hin.hasMore_eq, hw]
          rfl
        have hlen := hin.length_window
        have hle := hin.position_le
        rw [hw, List.length_nil] at hlen
        have hend : r.position = stop := by omega
        rw [hw, Element.elementsOf_nil, elements_of_not_hasMore hmore, ← hend]
        exact .ok [] rfl rfl
      have hmore : r.hasMore ⟨tag, stop⟩ = true := by
        rw [hin.hasMore_eq, Bool.not_eq_true', List.isEmpty_eq_false_iff]
        exact hw
      cases hs : Element.split r.window with
      | error failure =>
          rw [Element.elementsOf_of_error hw hs,
            elements_of_element_error hmore (element_of_split_error hs)]
          exact .error failure failure r rfl rfl
      | ok split =>
          obtain ⟨e, rest⟩ := split
          obtain ⟨r', he, hin', hw'⟩ := hin.element_of_split hs
          have hlt : r'.window.length < n := by
            rw [hw', ← hn]
            exact Element.length_lt_of_split hs
          have hend : { r' with position := stop } = { r with position := stop } := by
            rw [Reader.mk.injEq, hin.input_eq, hin'.input_eq, hin.ends_eq, hin'.ends_eq,
              hin.limits_eq, hin'.limits_eq]
            exact ⟨rfl, rfl, rfl, rfl⟩
          have hrest := (ih _ hlt hin' rfl).map (e :: ·)
          rw [map_apply, hend, hw'] at hrest
          rw [Element.elementsOf_of_split hs, elements_of_element hmore he]
          exact hrest

/-- Behind its elements a sequence can be closed. -/
theorem closeSequence_atStop (hin : Inside outer stop r) :
    closeSequence ⟨tag, stop⟩ { r with position := stop } =
      (.ok (), { outer with position := stop }) := by
  have hend : Inside outer stop { r with position := stop } :=
    { hin with
      position_le := Nat.le_refl stop
      size_le := by
        rw [Nat.sub_self]
        exact Nat.zero_le _ }
  refine hend.closeSequence_of_nil ?_
  rw [← List.length_eq_zero_iff, hend.length_window, Nat.sub_self]

end Reader.Inside

/-! ## Whole sequences -/

namespace Reading

variable {r r' : Reader} {e : Element}

/-- A sequence of a constructed type is read as the elements of its value. -/
theorem agrees_sequence (hdepth : r.ends.length < r.limits.depth) (he : element r = (.ok e, r'))
    (hc : isConstructed e.tag = true) : Agrees (sequence r) e.asElements r' := by
  obtain ⟨head, hd, hs, rfl, rfl⟩ := element_eq_ok_iff.mp he
  obtain ⟨inner, hopen, hin, hw⟩ := openSequence_inside hdepth hd hs hc
  rw [sequence, bind_of_ok hopen, Reader.advance_add, ← hw, ← bind_pure (Element.asElements _)]
  refine (hin.agrees_elements).bind fun children => ?_
  rw [bind_of_ok hin.closeSequence_atStop]
  exact .ok children rfl rfl

/-- A sequence that is read is the next element. -/
theorem element_of_sequence (hdepth : r.ends.length < r.limits.depth) {children : List Element}
    (h : sequence r = (.ok children, r')) : ∃ e s, element r = (.ok e, s) := by
  rcases header_cases r with ⟨failure, hf⟩ | ⟨head, hd, hs⟩
  · rw [sequence, bind_of_error (openSequence_of_header_error hdepth hf)] at h
    cases h
  · exact ⟨_, _, element_of_decode hd hs⟩

/-- **Looking at a sequence and reading it agree.** Octets whose type is constructed are an
element of these children exactly if a reader at their front opens a sequence, reads these
elements from it, one after the other while it has more, and closes it with nothing left. -/
theorem sequence_iff_asElements (octets : Octets) (limits : Limits) (children : List Element)
    {tag : UInt8} (hdepth : 1 ≤ limits.depth) (hsize : octets.length ≤ limits.elementSize)
    (htag : octets.head? = some tag) (hc : isConstructed tag = true) :
    (Element.decode octets >>= Element.asElements) = .ok children ↔
      ∃ s, sequence (Reader.ofOctets octets limits) = (.ok children, s) ∧ s.remaining = 0 := by
  have hopen : (Reader.ofOctets octets limits).ends.length <
      (Reader.ofOctets octets limits).limits.depth := hdepth
  have hconstructed {e : Element} {s : Reader}
      (he : element (Reader.ofOctets octets limits) = (.ok e, s)) : isConstructed e.tag = true := by
    have hpeek := peek?_of_element he
    rw [Reader.peek?, Reader.window_ofOctets, htag] at hpeek
    rw [← Option.some.inj hpeek]
    exact hc
  constructor
  · intro h
    obtain ⟨e, hdecode, hchildren⟩ := bind_eq_ok_iff.mp h
    obtain ⟨s, he, hs⟩ := (element_ofOctets_iff hsize).mpr hdecode
    have hagrees := agrees_sequence hopen he (hconstructed he)
    exact ⟨s, (hagrees.eq_ok_iff children s).mpr ⟨hchildren, rfl⟩, hs⟩
  · rintro ⟨s, hread, hs⟩
    obtain ⟨e, s', he⟩ := element_of_sequence hopen hread
    have hagrees := agrees_sequence hopen he (hconstructed he)
    obtain ⟨hchildren, rfl⟩ := (hagrees.eq_ok_iff children s).mp hread
    exact bind_eq_ok_iff.mpr ⟨e, (element_ofOctets_iff hsize).mp ⟨s, he, hs⟩, hchildren⟩

/-- A number and a text in a sequence are read in order as the elements that the sequence is made
of. -/
theorem sequence_iff_asElements_pair :
    (Element.decode [0x30, 0x06, 0x02, 0x01, 0x05, 0x04, 0x01, 0x78] >>= Element.asElements) =
        .ok [⟨Tag.integer, [0x05]⟩, ⟨Tag.octetString, [0x78]⟩] ∧
      ∃ s, sequence (Reader.ofOctets [0x30, 0x06, 0x02, 0x01, 0x05, 0x04, 0x01, 0x78] ⟨8, 1⟩) =
        (.ok [⟨Tag.integer, [0x05]⟩, ⟨Tag.octetString, [0x78]⟩], s) ∧ s.remaining = 0 := by
  have hlook : (Element.decode [0x30, 0x06, 0x02, 0x01, 0x05, 0x04, 0x01, 0x78] >>=
      Element.asElements) = .ok [⟨Tag.integer, [0x05]⟩, ⟨Tag.octetString, [0x78]⟩] := by
    have hdecode : Element.decode [0x30, 0x06, 0x02, 0x01, 0x05, 0x04, 0x01, 0x78] =
        .ok (.sequence Tag.sequence [⟨Tag.integer, [0x05]⟩, ⟨Tag.octetString, [0x78]⟩]) := by
      decide +kernel
    rw [hdecode, ok_bind]
    exact Element.asElements_sequence (by simp) (by decide)
  exact ⟨hlook, (sequence_iff_asElements _ ⟨8, 1⟩ _ (by decide) (by decide) rfl (by decide)).mp
    hlook⟩

end Reading

end DirectoryAccess.Ber
