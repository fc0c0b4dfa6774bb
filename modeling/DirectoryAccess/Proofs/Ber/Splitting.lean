import DirectoryAccess.Proofs.Ber.Element

/-!
# Values cut into elements

An element is split off some octets exactly if they begin with a header that announces
it and with its value (`Element.split_eq_ok_iff`). A value is therefore split into
elements exactly if it is such headers and values one after the other, without gap or
overlap (`Element.IsCut`), and there is no second way to cut it
(`Element.IsCut.unique`). Every step takes at least two octets, which bounds the number
of steps, whatever the headers say (`Element.splitWithin_eq`).
-/

namespace DirectoryAccess.Ber

/-- A definite length takes an octet. -/
theorem Length.Definite.length_pos {field : Octets} {n : Nat} (h : Definite field n) :
    0 < field.length := by
  obtain ⟨length, hwritten, -⟩ := h
  cases hwritten with
  | short b hb => exact Nat.one_pos
  | long digits hpos hlt => exact Nat.succ_pos _

namespace Element

variable {octets rest head : Octets} {e : Element} {children : List Element}

/-! ## One element -/

/-- Octets that are a header of an element: its type, of one octet, and a definite length of its
value that takes no more octets than are accepted. -/
inductive AnnouncedBy (e : Element) : Octets → Prop
  /-- The type and the length, whether or not the length is the shortest. -/
  | header (field : Octets) (htag : isMultiOctet e.tag = false)
      (hlength : Length.Definite field e.value.length)
      (hle : field.length ≤ 1 + Length.maxOctets) : AnnouncedBy e (e.tag :: field)

/-- A header takes an octet for the type and at least one for the length. -/
theorem AnnouncedBy.two_le_length (h : e.AnnouncedBy head) : 2 ≤ head.length := by
  cases h with
  | header field htag hlength hle => exact Nat.succ_le_succ hlength.length_pos

/-- An element that has a header can be written. -/
theorem AnnouncedBy.writable (h : e.AnnouncedBy head) : e.Writable := by
  cases h with
  | header field htag hlength hle => exact ⟨htag, Length.lt_of_definite hlength hle⟩

/-- The header that is written takes no more octets than any. -/
theorem AnnouncedBy.length_encode_le (h : e.AnnouncedBy head) :
    e.encode.length ≤ head.length + e.value.length := by
  cases h with
  | header field htag hlength hle =>
      have hfield := Length.length_encode_le_of_definite hlength
      rw [length_encode, List.length_cons]
      omega

/-- Behind the type and the length field stands what was put there. -/
theorem drop_header (tag : UInt8) (field octets : Octets) :
    (tag :: (field ++ octets)).drop (1 + field.length) = octets := by
  rw [Nat.add_comm, List.drop_succ_cons, List.drop_left]

/-- An element is split off exactly where the octets begin with a header that announces it and with
its value. -/
theorem split_eq_ok_iff : split octets = .ok (e, rest) ↔
    ∃ head, e.AnnouncedBy head ∧ octets = head ++ (e.value ++ rest) := by
  constructor
  · intro h
    cases hd : Header.decode octets with
    | error failure =>
        rw [split_of_decode_error hd] at h
        cases h
    | ok header =>
        obtain ⟨field, value, behind, rfl, htag, hlength, hle, hwidth, hsize⟩ :=
          Header.decode_eq_ok_iff.mp hd
        simp only [split, hd, hwidth, hsize, drop_header, List.take_left, List.drop_left] at h
        cases h
        exact ⟨header.tag :: field, .header field htag hlength hle, rfl⟩
  · rintro ⟨head, hhead, rfl⟩
    cases hhead with
    | header field htag hlength hle =>
        have hd : Header.decode (e.tag :: field ++ (e.value ++ rest)) =
            .ok ⟨e.tag, 1 + field.length, e.value.length⟩ :=
          Header.decode_eq_ok_iff.mpr ⟨field, e.value, rest, rfl, htag, hlength, hle, rfl, rfl⟩
        rw [List.cons_append] at hd ⊢
        simp only [split, hd, drop_header, List.take_left, List.drop_left]

/-- An element that is split off takes at least two octets. -/
theorem length_add_two_le_of_split (h : split octets = .ok (e, rest)) :
    rest.length + 2 ≤ octets.length := by
  obtain ⟨head, hhead, rfl⟩ := split_eq_ok_iff.mp h
  have htwo := hhead.two_le_length
  rw [List.length_append, List.length_append]
  omega

/-! ## All elements -/

/-- A way to cut octets into elements, each with the octets in front of its value. -/
structure IsCut (octets : Octets) (parts : List (Octets × Element)) : Prop where
  /-- What stands in front of a value is a header that announces the element. -/
  announced : ∀ part ∈ parts, part.2.AnnouncedBy part.1
  /-- The octets are the headers and the values in turn, and nothing else. -/
  eq_flatMap : octets = parts.flatMap fun part => part.1 ++ part.2.value

variable {parts parts' : List (Octets × Element)}

/-- Octets are cut into no elements exactly if they are none. -/
theorem isCut_nil_iff : IsCut octets [] ↔ octets = [] := by
  constructor
  · exact fun h => h.eq_flatMap
  · rintro rfl
    exact ⟨nofun, rfl⟩

/-- What stands behind the first element is cut into the others. -/
theorem isCut_cons_iff : IsCut octets ((head, e) :: parts) ↔
    ∃ rest, split octets = .ok (e, rest) ∧ e.AnnouncedBy head ∧
      octets = head ++ (e.value ++ rest) ∧ IsCut rest parts := by
  constructor
  · rintro ⟨hall, hoctets⟩
    rw [List.forall_mem_cons] at hall
    rw [List.flatMap_cons, List.append_assoc] at hoctets
    exact ⟨_, split_eq_ok_iff.mpr ⟨head, hall.1, hoctets⟩, hall.1, hoctets, hall.2, rfl⟩
  · rintro ⟨rest, -, hhead, rfl, hall, rfl⟩
    refine ⟨List.forall_mem_cons.mpr ⟨hhead, hall⟩, ?_⟩
    rw [List.flatMap_cons, List.append_assoc]

/-- Octets that are cut into elements are made of them. -/
theorem elementsOf_of_isCut (h : IsCut octets parts) :
    elementsOf octets = .ok (parts.map Prod.snd) := by
  induction parts generalizing octets with
  | nil =>
      rw [isCut_nil_iff.mp h]
      exact elementsOf_nil
  | cons part parts ih =>
      obtain ⟨rest, hsplit, -, -, hrest⟩ := isCut_cons_iff.mp h
      rw [elementsOf_of_split hsplit, ih hrest]
      rfl

/-- Octets that are made of elements can be cut into them. -/
theorem exists_isCut_of_elementsOf (h : elementsOf octets = .ok children) :
    ∃ parts, IsCut octets parts ∧ parts.map Prod.snd = children := by
  induction children generalizing octets with
  | nil =>
      have hnil : octets = [] := by
        by_contra hne
        exact elementsOf_ne_ok_nil hne h
      exact ⟨[], isCut_nil_iff.mpr hnil, rfl⟩
  | cons child children ih =>
      obtain ⟨rest, hsplit, hrest⟩ := exists_split_of_elementsOf_cons h
      obtain ⟨head, hhead, hoctets⟩ := split_eq_ok_iff.mp hsplit
      obtain ⟨parts, hparts, rfl⟩ := ih hrest
      exact ⟨(head, child) :: parts, isCut_cons_iff.mpr ⟨rest, hsplit, hhead, hoctets, hparts⟩, rfl⟩

/-- Octets are made of elements exactly if they can be cut into them. -/
theorem elementsOf_eq_ok_iff : elementsOf octets = .ok children ↔
    ∃ parts, IsCut octets parts ∧ parts.map Prod.snd = children := by
  constructor
  · exact exists_isCut_of_elementsOf
  · rintro ⟨parts, hparts, rfl⟩
    exact elementsOf_of_isCut hparts

/-- Octets that begin with an element are some. -/
theorem not_isCut_nil_of_split (h : split octets = .ok (e, rest)) : ¬ IsCut octets [] :=
  fun hnil => ne_nil_of_split h (isCut_nil_iff.mp hnil)

/-- There is no second way to cut octets into elements, not even with other headers: neither the
first element nor what is left behind it depends on the header. -/
theorem IsCut.unique (h : IsCut octets parts) (h' : IsCut octets parts') : parts = parts' := by
  induction parts generalizing octets parts' with
  | nil =>
      cases parts' with
      | nil => rfl
      | cons part' parts' =>
          obtain ⟨rest, hsplit, -⟩ := isCut_cons_iff.mp h'
          exact absurd h (not_isCut_nil_of_split hsplit)
  | cons part parts ih =>
      obtain ⟨rest, hsplit, -, hoctets, hrest⟩ := isCut_cons_iff.mp h
      cases parts' with
      | nil => exact absurd h' (not_isCut_nil_of_split hsplit)
      | cons part' parts' =>
          obtain ⟨rest', hsplit', -, hoctets', hrest'⟩ := isCut_cons_iff.mp h'
          rw [hsplit, Except.ok.injEq, Prod.mk.injEq] at hsplit'
          obtain ⟨helement, rfl⟩ := hsplit'
          rw [hoctets, helement] at hoctets'
          have hhead : part.1 = part'.1 := List.append_cancel_right hoctets'
          rw [ih hrest hrest', Prod.ext hhead helement]

/-! ## Steps -/

/-- Takes elements off the front in no more than the given number of steps, if that is enough to
come to an answer. -/
def splitWithin : Nat → List Element → Octets → Option (Except Failure (List Element))
  | 0, found, octets => if octets.isEmpty then some (.ok found.reverse) else none
  | steps + 1, found, octets =>
    if octets.isEmpty then some (.ok found.reverse)
    else
      match split octets with
      | .error failure => some (.error failure)
      | .ok (e, rest) => splitWithin steps (e :: found) rest

/-- Half as many steps as there are octets are enough. -/
theorem splitWithin_eq {steps : Nat} (found : List Element) (h : octets.length ≤ 2 * steps) :
    splitWithin steps found octets = some (splitAll found octets) := by
  induction steps generalizing found octets with
  | zero =>
      obtain rfl : octets = [] := List.length_eq_zero_iff.mp (Nat.le_zero.mp h)
      rw [splitAll_nil]
      rfl
  | succ steps ih =>
      rw [splitWithin]
      by_cases hnil : octets = []
      · rw [hnil, splitAll_nil]
        rfl
      rw [if_neg (fun hempty => hnil (List.isEmpty_iff.mp hempty))]
      cases hs : split octets with
      | error failure => rw [splitAll_of_error found hnil hs]
      | ok next =>
          obtain ⟨e, rest⟩ := next
          have htwo := length_add_two_le_of_split hs
          rw [splitAll_of_split found hs]
          exact ih (e :: found) (by omega)

/-! ## Values -/

/-- How the value of an element is split. -/
structure SplitsExactly (e : Element) : Prop where
  /-- The value is split into elements exactly if it can be cut into them. -/
  eq_ok_iff : ∀ children, e.asElements = .ok children ↔
    ∃ parts, IsCut e.value parts ∧ parts.map Prod.snd = children
  /-- It can be cut in one way only. -/
  unique : ∀ parts parts', IsCut e.value parts → IsCut e.value parts' → parts = parts'
  /-- It is refused exactly if it cannot be cut at all. -/
  eq_error_iff : (∃ failure, e.asElements = .error failure) ↔ ¬ ∃ parts, IsCut e.value parts
  /-- Both are settled in half as many steps as the value has octets. -/
  within : splitWithin ((e.value.length + 1) / 2) [] e.value = some e.asElements

/-- Every value is split in the one way in which it can be cut, or refused. -/
theorem splitsExactly (e : Element) : e.SplitsExactly where
  eq_ok_iff _ := elementsOf_eq_ok_iff
  unique _ _ := IsCut.unique
  eq_error_iff := by
    constructor
    · rintro ⟨failure, hfailure⟩ ⟨parts, hparts⟩
      have hok : e.asElements = .ok (parts.map Prod.snd) := elementsOf_of_isCut hparts
      rw [hfailure] at hok
      cases hok
    · intro h
      cases hanswer : e.asElements with
      | error failure => exact ⟨failure, rfl⟩
      | ok children =>
          obtain ⟨parts, hparts, -⟩ := elementsOf_eq_ok_iff.mp hanswer
          exact absurd ⟨parts, hparts⟩ h
  within := splitWithin_eq [] (by omega)

/-- **Values are split exactly and in one way.** A sequence is split into the elements that it was
made of, if the type of each takes one octet and its value fewer than `2 ^ 32`. Any value at all is
split into elements exactly if it is their headers and values in turn. -/
theorem asElements_splitsExactly :
    (∀ tag (elements : List Element),
      (∀ e ∈ elements, isMultiOctet e.tag = false ∧ e.value.length < 2 ^ 32) →
        (sequence tag elements).asElements = .ok elements) ∧
    ∀ e : Element, e.SplitsExactly := by
  constructor
  · intro tag elements h
    exact elementsOf_flatMap_encode fun e he => ⟨(h e he).1, (h e he).2⟩
  · exact splitsExactly

/-- A number and a text, whose length takes more octets than it needs. -/
def paddedPair : Element := ⟨Tag.sequence, [0x02, 0x01, 0x05, 0x04, 0x82, 0x00, 0x01, 0x78]⟩

/-- A number and a text are split from a set and from a sequence with a padded length, and a header
without its value is refused. -/
theorem asElements_splitsExactly_paddedPair :
    (sequence Tag.set [⟨Tag.integer, [0x05]⟩, ⟨Tag.octetString, [0x78]⟩]).asElements =
        .ok [⟨Tag.integer, [0x05]⟩, ⟨Tag.octetString, [0x78]⟩] ∧
      paddedPair.asElements = .ok [⟨Tag.integer, [0x05]⟩, ⟨Tag.octetString, [0x78]⟩] ∧
      ∃ failure, (⟨Tag.sequence, [0x02, 0x01]⟩ : Element).asElements = .error failure := by
  obtain ⟨hsequence, hvalue⟩ := asElements_splitsExactly
  refine ⟨hsequence Tag.set _ (by decide), ?_, ?_⟩
  · refine ((hvalue paddedPair).eq_ok_iff _).mpr
      ⟨[([0x02, 0x01], ⟨Tag.integer, [0x05]⟩),
        ([0x04, 0x82, 0x00, 0x01], ⟨Tag.octetString, [0x78]⟩)], ⟨?_, rfl⟩, rfl⟩
    have hfirst : (⟨Tag.integer, [0x05]⟩ : Element).AnnouncedBy [0x02, 0x01] :=
      .header [0x01] (by decide) ⟨_, .short 0x01 (by decide), rfl⟩ (by decide)
    have hsecond : (⟨Tag.octetString, [0x78]⟩ : Element).AnnouncedBy [0x04, 0x82, 0x00, 0x01] :=
      .header [0x82, 0x00, 0x01] (by decide) ⟨_, .long [0x00, 0x01] (by decide) (by decide), rfl⟩
        (by decide)
    rintro part hpart
    rcases List.mem_pair.mp hpart with rfl | rfl
    · exact hfirst
    · exact hsecond
  · exact ⟨_, Option.some.inj (hvalue ⟨Tag.sequence, [0x02, 0x01]⟩).within.symm⟩

end Element

end DirectoryAccess.Ber
