import DirectoryAccess.Proofs.Ber.WellNested

/-!
# Reading with every bound checked

A reader takes slices of its octets, looks at single ones and subtracts places from
one another. The steps here are those of a reader with each of these checked: one
whose bounds do not hold has no outcome at all. For a well-nested reader every one
of them has an outcome, and it is that of the step without the checks.
-/

namespace DirectoryAccess.Ber

/-- The difference of two numbers, if it is not negative. -/
def sub? (m n : Nat) : Option Nat :=
  if n ≤ m then some (m - n) else none

/-- The octets from one place up to another, if these places are in order and in the octets. -/
def slice? (octets : Octets) (start stop : Nat) : Option Octets :=
  if start ≤ stop ∧ stop ≤ octets.length then some ((octets.take stop).drop start) else none

/-- A difference that is not negative is taken. -/
theorem sub?_eq {m n : Nat} (h : n ≤ m) : sub? m n = some (m - n) := if_pos h

/-- Octets within bounds are cut out. -/
theorem slice?_eq {octets : Octets} {start stop : Nat} (hstart : start ≤ stop)
    (hstop : stop ≤ octets.length) :
    slice? octets start stop = some ((octets.take stop).drop start) :=
  if_pos ⟨hstart, hstop⟩

namespace Checked

/-! ## Lengths, headers and numbers -/

/-- The length at the front of some octets, and how many of them it takes. -/
def length (octets : Octets) : Option (Except Failure (Length × Nat)) :=
  match octets.head? with
  | none => some (.error Fault.noLength)
  | some b =>
    if b < 0x80 then some (.ok (.short b, 1))
    else
      let count := (b &&& 0x7F).toNat
      if count = 0 then some (.error Fault.indefiniteLength)
      else if Length.maxOctets < count then some (.error (Fault.wideLength count))
      else if octets.length < 1 + count then
        some (.error (Fault.lengthCutShort (1 + count) octets.length))
      else (slice? octets 1 (1 + count)).map fun digits =>
        .ok (.long (Octets.ofBigEndian digits), 1 + count)

/-- A length is read without a step beyond the octets. -/
theorem length_eq (octets : Octets) : length octets = some (Length.decode octets) := by
  cases octets with
  | nil => rfl
  | cons b rest =>
      simp only [length, List.head?_cons, Length.decode]
      by_cases hshort : b < 0x80
      · rw [if_pos hshort, if_pos hshort]
      rw [if_neg hshort, if_neg hshort]
      by_cases hzero : (b &&& 0x7F).toNat = 0
      · rw [if_pos hzero, if_pos hzero]
      rw [if_neg hzero, if_neg hzero]
      by_cases hwide : Length.maxOctets < (b &&& 0x7F).toNat
      · rw [if_pos hwide, if_pos hwide]
      rw [if_neg hwide, if_neg hwide, List.length_cons, List.length_take]
      by_cases hcut : rest.length < (b &&& 0x7F).toNat
      · rw [if_pos (by omega), if_pos (by omega), Nat.min_eq_right (Nat.le_of_lt hcut),
          Nat.add_comm rest.length]
      · have hslice : slice? (b :: rest) 1 (1 + (b &&& 0x7F).toNat) =
            some (rest.take (b &&& 0x7F).toNat) := by
          rw [slice?_eq (by omega) (by rw [List.length_cons]; omega), Nat.add_comm 1,
            List.take_succ_cons, List.drop_one, List.tail_cons]
        rw [if_neg (by omega), if_neg (by omega), hslice, Option.map_some]

/-- The header at the front of some octets, of which the first `limit` hold the element. -/
def header (octets : Octets) (limit : Nat) : Option (Except Failure Header) := do
  let octets ← slice? octets 0 (min limit octets.length)
  match octets.head? with
  | none => return .error Fault.noType
  | some tag =>
    if isMultiOctet tag then return .error (Fault.multiOctetType tag)
    match ← length (← slice? octets 1 octets.length) with
    | .error failure => return .error failure
    | .ok (length, width) =>
      let present ← sub? octets.length (1 + width)
      if present < length.toNat then return .error (Fault.overrun tag length.toNat present)
      return .ok ⟨tag, 1 + width, length.toNat⟩

/-- A header is read without a step beyond the octets. -/
theorem header_eq (octets : Octets) :
    header octets octets.length = some (Header.decode octets) := by
  rw [header, Nat.min_self, slice?_eq (Nat.zero_le _) (Nat.le_refl _), List.take_length,
    List.drop_zero]
  simp only [Option.bind_eq_bind, Option.bind_some]
  cases octets with
  | nil => rfl
  | cons tag rest =>
      have hslice : slice? (tag :: rest) 1 (tag :: rest).length = some rest := by
        rw [slice?_eq (by rw [List.length_cons]; omega) (Nat.le_refl _), List.take_length,
          List.drop_one, List.tail_cons]
      simp only [List.head?_cons, hslice, length_eq, Option.bind_some, Header.decode]
      by_cases hmulti : isMultiOctet tag = true
      · rw [if_pos hmulti, if_pos hmulti]
        rfl
      rw [if_neg hmulti, if_neg hmulti]
      cases hl : Length.decode rest with
      | error failure => rfl
      | ok decoded =>
          obtain ⟨length, width⟩ := decoded
          have hsub : sub? (tag :: rest).length (1 + width) = some (rest.length - width) := by
            have hwidth := Length.le_length_of_decode hl
            rw [List.length_cons, sub?_eq (by omega), Nat.add_comm 1 width, Nat.add_sub_add_right]
          have hpresent : ((rest.drop width).take length.toNat).length =
              min length.toNat (rest.length - width) := by
            rw [List.length_take, List.length_drop]
          simp only [hsub, hpresent, Option.bind_some]
          by_cases hover : rest.length - width < length.toNat
          · rw [if_pos hover, if_pos (by omega), Nat.min_eq_right (Nat.le_of_lt hover)]
            rfl
          · rw [if_neg hover, if_neg (by omega)]
            rfl

/-- The number that one to eight octets hold; its sign is that of the first of them. -/
def integer (octets : Octets) : Option (Except Failure Int) :=
  if octets.isEmpty then some (.error Fault.emptyInteger)
  else if 8 < octets.length then some (.error (Fault.wideInteger octets.length))
  else octets[0]?.map fun first =>
    .ok (octets.foldl (fun v b => v * 256 + (b.toNat : Int)) (if first < 0x80 then 0 else -1))

/-- A number is read without a step beyond its octets. -/
theorem integer_eq (octets : Octets) : integer octets = some (decodeInteger octets) := by
  rw [integer, decodeInteger]
  cases octets with
  | nil => rfl
  | cons b rest =>
      by_cases hwide : 8 < (b :: rest).length
      · rw [if_pos hwide, if_pos hwide]
        rfl
      · rw [if_neg hwide, if_neg hwide]
        rfl

/-! ## Steps -/

/-- Reads the type and the length of the next element and stands in front of its value. -/
def nextHeader (r : Reader) : Option (Except Failure Header × Reader) := do
  let octets ← slice? r.input r.position r.limit
  match ← header octets (← sub? r.limit r.position) with
  | .error failure => return (.error failure, r)
  | .ok head =>
    if r.limits.elementSize < head.size then
      return (.error (Fault.elementSize head.size r.limits.elementSize), r)
    return (.ok head, r.advance head.width)

/-- Reads the next element. -/
def element (r : Reader) : Option (Except Failure Element × Reader) := do
  match ← nextHeader r with
  | (.error failure, r) => return (.error failure, r)
  | (.ok head, r) =>
    let value ← slice? r.input r.position (r.position + head.size)
    return (.ok ⟨head.tag, value⟩, r.advance head.size)

/-- Reads the next element and looks at it. -/
def elementAs {α : Type} (look : Element → Option (Except Failure α)) (r : Reader) :
    Option (Except Failure α × Reader) := do
  match ← element r with
  | (.error failure, r) => return (.error failure, r)
  | (.ok e, r) => return (← look e, r)

/-- The type octet of the next element, if something is left. -/
def peek (r : Reader) : Option (Option UInt8) :=
  if r.hasRemaining then r.input[r.position]?.map some else some none

/-- Opens the next element as a sequence. -/
def openSequence (r : Reader) : Option (Except Failure Opened × Reader) := do
  if r.limits.depth ≤ r.ends.length then return (.error (Fault.depth r.limits.depth), r)
  match ← nextHeader r with
  | (.error failure, r) => return (.error failure, r)
  | (.ok head, r) =>
    if !isConstructed head.tag then return (.error (Fault.primitive head.tag), r)
    let stop := r.position + head.size
    return (.ok ⟨head.tag, stop⟩, { r with ends := stop :: r.ends })

/-- Closes a sequence, which must be the innermost open one and read to its end. -/
def closeSequence (opened : Opened) (r : Reader) : Option (Except Failure Unit × Reader) := do
  if r.ends.head? ≠ some opened.stop then return (.error Fault.notInnermost, r)
  if r.position ≠ opened.stop then
    return (.error (Fault.unread (← sub? opened.stop r.position) opened.tag), r)
  return (.ok (), { r with ends := r.ends.tail })

section WellNested

variable {r : Reader}

/-- A well-nested reader finds its next header without a step beyond its bounds. -/
theorem nextHeader_eq (h : r.WellNested) : nextHeader r = some (Reading.header r) := by
  have hslice : slice? r.input r.position r.limit = some r.window :=
    slice?_eq h.position_le_limit h.limit_le_length
  have hsub : sub? r.limit r.position = some r.window.length := by
    rw [sub?_eq h.position_le_limit, h.length_window]
  simp only [nextHeader, hslice, hsub, header_eq, Option.bind_eq_bind, Option.bind_some]
  cases hd : Header.decode r.window with
  | error failure =>
      rw [Reading.header_of_error hd]
      rfl
  | ok head =>
      rcases Nat.lt_or_ge r.limits.elementSize head.size with hs | hs
      · rw [Reading.header_of_large hd hs]
        exact if_pos hs
      · rw [Reading.header_of_decode hd hs]
        exact if_neg (Nat.not_lt.mpr hs)

/-- A well-nested reader reads its next element without a step beyond its bounds. -/
theorem element_eq (h : r.WellNested) : element r = some (Reading.element r) := by
  rw [element, nextHeader_eq h]
  rcases Reading.header_cases r with ⟨failure, hf⟩ | ⟨head, hd, hs⟩
  · rw [hf, Reading.element_of_header_error hf]
    rfl
  · have hle := (Header.le_length_of_decode hd).2
    have hstop := h.advance_le hle (List.mem_append_right _ (List.mem_singleton_self _))
    have hslice : slice? (r.advance head.width).input (r.advance head.width).position
        ((r.advance head.width).position + head.size) =
          some ((r.window.drop head.width).take head.size) := by
      rw [Reader.advance_position, Reader.advance_input,
        slice?_eq (Nat.le_add_right _ _) (by omega), List.drop_take, Nat.add_sub_cancel_left,
        Reader.take_drop_window hle]
    rw [Reading.header_of_decode hd hs, Reading.element_of_decode hd hs]
    simp only [Option.bind_eq_bind, Option.bind_some, hslice, Reader.advance_advance]
    rfl

/-- A well-nested reader stays within its bounds where a view of the next element does. -/
theorem elementAs_eq {α : Type} (h : r.WellNested) {look : Element → Option (Except Failure α)}
    {view : Element → Except Failure α} (hlook : ∀ e, look e = some (view e)) :
    elementAs look r = some (Reading.elementAs view r) := by
  rw [elementAs, element_eq h]
  cases he : Reading.element r with
  | mk answer r' =>
      cases answer with
      | error failure =>
          rw [Reading.elementAs_of_element_error he]
          rfl
      | ok e =>
          rw [Reading.elementAs_of_element he]
          simp only [Option.bind_eq_bind, Option.bind_some, hlook]
          rfl

/-- A well-nested reader looks at the type that comes next without a step beyond its bounds. -/
theorem peek_eq (h : r.WellNested) : peek r = some r.peek? := by
  have hlimit := h.limit_le_length
  rw [peek, Reader.hasRemaining, Reader.peek?, Reader.window, List.head?_drop, List.getElem?_take]
  by_cases hleft : r.position < r.limit
  · have hindex : r.position < r.input.length := Nat.lt_of_lt_of_le hleft hlimit
    rw [if_pos (decide_eq_true hleft), if_pos hleft, List.getElem?_eq_getElem hindex]
    rfl
  · rw [if_neg (fun hd => hleft (of_decide_eq_true hd)), if_neg hleft]

/-- A well-nested reader opens a sequence without a step beyond its bounds. -/
theorem openSequence_eq (h : r.WellNested) : openSequence r = some (Reading.openSequence r) := by
  rw [openSequence, nextHeader_eq h]
  rcases Nat.lt_or_ge r.ends.length r.limits.depth with hdepth | hdepth
  · rw [if_neg (Nat.not_le.mpr hdepth)]
    rcases Reading.header_cases r with ⟨failure, hf⟩ | ⟨head, hd, hs⟩
    · rw [hf, Reading.openSequence_of_header_error hdepth hf]
      rfl
    · rw [Reading.header_of_decode hd hs]
      cases hc : isConstructed head.tag with
      | false =>
          rw [Reading.openSequence_of_primitive hdepth hd hs hc]
          simp only [Option.bind_eq_bind, Option.bind_some, hc, Bool.not_false, if_true]
          rfl
      | true =>
          rw [Reading.openSequence_of_constructed hdepth hd hs hc]
          simp only [Option.bind_eq_bind, Option.bind_some, hc, Bool.not_true, Bool.false_eq_true,
            if_false]
          rfl
  · rw [if_pos hdepth, Reading.openSequence_of_depth hdepth]
    rfl

/-- A well-nested reader closes a sequence without a step beyond its bounds, or refuses to. -/
theorem closeSequence_eq (h : r.WellNested) (opened : Opened) :
    closeSequence opened r = some (Reading.closeSequence opened r) := by
  rw [closeSequence, Reading.closeSequence]
  by_cases hinner : r.ends.head? = some opened.stop
  · have hlimit : r.limit = opened.stop := by
      rw [Reader.limit, List.headD_eq_head?_getD, hinner, Option.getD_some]
    have hsub : sub? opened.stop r.position = some (opened.stop - r.position) := by
      rw [← hlimit]
      exact sub?_eq h.position_le_limit
    rw [if_neg (not_not_intro hinner), if_neg (not_not_intro hinner)]
    by_cases hstop : r.position = opened.stop
    · rw [if_neg (not_not_intro hstop), if_neg (not_not_intro hstop)]
      rfl
    · rw [if_pos hstop, if_pos hstop, hsub]
      rfl
  · rw [if_pos hinner, if_pos hinner]
    rfl

end WellNested

end Checked

end DirectoryAccess.Ber
