import DirectoryAccess.Proofs.Answer
import DirectoryAccess.Proofs.Ber.Definite
import DirectoryAccess.Proofs.Ber.Integer
import DirectoryAccess.Proofs.Text.Utf8

/-!
# Written elements read back

An element is split off the front of what it is written as (`split_encode_append`),
so a sequence is read back as the elements that it was made of
(`asElements_sequence`). Only two things can prevent it: a type of several octets
and a value of `2 ^ 32` octets or more. The value of a sequence is longer than that
of each of its elements, so one bound on the outermost value is enough.
-/

namespace DirectoryAccess.Ber

/-! ## Types of one octet -/

@[simp] theorem isMultiOctet_boolean : isMultiOctet Tag.boolean = false := by decide

@[simp] theorem isMultiOctet_integer : isMultiOctet Tag.integer = false := by decide

@[simp] theorem isMultiOctet_octetString : isMultiOctet Tag.octetString = false := by decide

@[simp] theorem isMultiOctet_enumerated : isMultiOctet Tag.enumerated = false := by decide

@[simp] theorem isMultiOctet_sequence : isMultiOctet Tag.sequence = false := by decide

@[simp] theorem isMultiOctet_set : isMultiOctet Tag.set = false := by decide

namespace Element

@[simp] theorem boolean_tag (tag : UInt8) (b : Bool) : (boolean tag b).tag = tag := rfl

@[simp] theorem integer_tag (tag : UInt8) (v : Int) : (integer tag v).tag = tag := rfl

@[simp] theorem text_tag (tag : UInt8) (s : String) : (text tag s).tag = tag := rfl

@[simp] theorem sequence_tag (tag : UInt8) (elements : List Element) :
    (sequence tag elements).tag = tag := rfl

@[simp] theorem texts_tag (tag : UInt8) (strings : List String) :
    (texts tag strings).tag = tag := rfl

/-! ## One element -/

/-- The octets of an element are those of its header and its value. -/
theorem length_encode (element : Element) :
    element.encode.length =
      1 + (Length.ofNat element.value.length).encode.length + element.value.length := by
  simp only [encode, List.length_cons, List.length_append]
  omega

/-- The element that a header announces is split off, and what follows its value is left. -/
theorem split_of_decode {octets : Octets} {head : Header} (h : Header.decode octets = .ok head) :
    split octets = .ok (⟨head.tag, (octets.drop head.width).take head.size⟩,
      octets.drop (head.width + head.size)) := by
  simp only [split, h, List.drop_drop]

/-- Without a header there is no element to split off. -/
theorem split_of_decode_error {octets : Octets} {failure : Failure}
    (h : Header.decode octets = .error failure) : split octets = .error failure := by
  simp only [split, h]

/-- Nothing can be split off no octets. -/
theorem ne_nil_of_split {octets rest : Octets} {element : Element}
    (h : split octets = .ok (element, rest)) : octets ≠ [] := by
  rintro rfl
  simp only [split, Header.decode, reduceCtorEq] at h

/-- An element is split off the front of its own octets. -/
theorem split_encode_append {element : Element} (ht : isMultiOctet element.tag = false)
    (hs : element.value.length < 2 ^ 32) (rest : Octets) :
    split (element.encode ++ rest) = .ok (element, rest) := by
  have hw : (element.encode ++ rest).drop
      (1 + (Length.ofNat element.value.length).encode.length) = element.value ++ rest := by
    simp only [encode, List.cons_append, Nat.add_comm 1, List.drop_succ_cons, List.append_assoc,
      List.drop_left]
  simp only [split, Header.decode_encode_append ht hs, hw, List.take_left, List.drop_left]

/-- Octets are an element where one can be split off and nothing is left. -/
theorem decode_eq_ok_iff {octets : Octets} {element : Element} :
    decode octets = .ok element ↔ split octets = .ok (element, []) := by
  rw [decode]
  split
  · rename_i failure hs
    simp only [hs, reduceCtorEq]
  · rename_i e hs
    simp only [hs, Except.ok.injEq, Prod.mk.injEq, and_true]
  · rename_i e rest hne hs
    simp only [hs, reduceCtorEq, Except.ok.injEq, Prod.mk.injEq, false_iff, not_and]
    rintro - rfl
    exact hne rfl

/-- An element is read back from its own octets. -/
theorem decode_encode {element : Element} (ht : isMultiOctet element.tag = false)
    (hs : element.value.length < 2 ^ 32) : decode element.encode = .ok element := by
  have hsplit := split_encode_append ht hs []
  rw [List.append_nil] at hsplit
  simp only [decode, hsplit]

/-- An element whose value takes `2 ^ 32` octets or more is not read back. -/
theorem decode_encode_of_wide {element : Element} (hl : 2 ^ 32 ≤ element.value.length)
    (hh : element.value.length < 2 ^ 64) : ∃ failure, decode element.encode = .error failure := by
  obtain ⟨failure, hd⟩ := Header.decode_encode_append_of_wide hl hh []
  rw [List.append_nil] at hd
  exact ⟨failure, by simp only [decode, split_of_decode_error hd]⟩

/-! ## Sequences -/

@[simp] theorem splitAll_nil (found : List Element) : splitAll found [] = .ok found.reverse := by
  rw [splitAll]
  rfl

/-- An element that is split off joins those found so far. -/
theorem splitAll_of_split {octets rest : Octets} {element : Element} (found : List Element)
    (h : split octets = .ok (element, rest)) :
    splitAll found octets = splitAll (element :: found) rest := by
  rw [splitAll, if_neg (fun he => ne_nil_of_split h (List.isEmpty_iff.mp he))]
  split
  · rename_i failure hf
    rw [h] at hf
    simp only [reduceCtorEq] at hf
  · rename_i next rest' hs
    rw [h] at hs
    simp only [Except.ok.injEq, Prod.mk.injEq] at hs
    rw [hs.1, hs.2]

/-- Octets that do not begin with an element are not made of elements, unless they are none. -/
theorem splitAll_of_error {octets : Octets} {failure : Failure} (found : List Element)
    (hne : octets ≠ []) (h : split octets = .error failure) :
    splitAll found octets = .error failure := by
  rw [splitAll, if_neg (fun he => hne (List.isEmpty_iff.mp he))]
  split
  · rename_i failure' hf
    rw [h] at hf
    rw [Except.error.inj hf]
  · rename_i element rest hs
    rw [h] at hs
    simp only [reduceCtorEq] at hs

/-- The elements found so far stand in front of those that are still to be found. -/
theorem splitAll_eq_map (found : List Element) (octets : Octets) :
    splitAll found octets = (splitAll [] octets).map (found.reverse ++ ·) := by
  induction hn : octets.length using Nat.strongRecOn generalizing found octets with
  | _ n ih =>
      by_cases hne : octets = []
      · rw [hne, splitAll_nil, splitAll_nil]
        simp only [Except.map, List.reverse_nil, List.append_nil]
      cases hs : split octets with
      | error failure =>
          rw [splitAll_of_error _ hne hs, splitAll_of_error _ hne hs]
          rfl
      | ok next =>
          obtain ⟨element, rest⟩ := next
          have hlt : rest.length < n := hn ▸ length_lt_of_split hs
          rw [splitAll_of_split _ hs, splitAll_of_split _ hs, ih _ hlt (element :: found) rest rfl,
            ih _ hlt [element] rest rfl]
          cases splitAll [] rest with
          | error failure => rfl
          | ok elements => simp only [Except.map, List.reverse_cons, List.reverse_nil,
              List.nil_append, List.append_assoc]

/-- The elements that some octets are made of, in order. -/
def elementsOf (octets : Octets) : Except Failure (List Element) := splitAll [] octets

@[simp] theorem elementsOf_nil : elementsOf [] = .ok [] := splitAll_nil []

/-- Octets that begin with an element are made of it and of what follows it. -/
theorem elementsOf_of_split {octets rest : Octets} {element : Element}
    (h : split octets = .ok (element, rest)) :
    elementsOf octets = (elementsOf rest).map (element :: ·) := by
  rw [elementsOf, splitAll_of_split [] h, splitAll_eq_map]
  rfl

/-- Octets that do not begin with an element are not made of elements. -/
theorem elementsOf_of_error {octets : Octets} {failure : Failure} (hne : octets ≠ [])
    (h : split octets = .error failure) : elementsOf octets = .error failure :=
  splitAll_of_error [] hne h

/-- Octets that are made of elements at all are made of none only if they are none. -/
theorem elementsOf_ne_ok_nil {octets : Octets} (hne : octets ≠ []) :
    elementsOf octets ≠ .ok [] := by
  intro h
  cases hs : split octets with
  | error failure =>
      rw [elementsOf_of_error hne hs] at h
      cases h
  | ok next =>
      obtain ⟨element, rest⟩ := next
      rw [elementsOf_of_split hs] at h
      cases hrest : elementsOf rest with
      | error failure =>
          rw [hrest] at h
          cases h
      | ok elements =>
          rw [hrest] at h
          cases h

/-- The first of the elements that some octets are made of is split off them, and what is left is
made of the others. -/
theorem exists_split_of_elementsOf_cons {octets : Octets} {e : Element} {es : List Element}
    (h : elementsOf octets = .ok (e :: es)) :
    ∃ rest, split octets = .ok (e, rest) ∧ elementsOf rest = .ok es := by
  have hne : octets ≠ [] := by
    rintro rfl
    rw [elementsOf_nil] at h
    cases h
  cases hs : split octets with
  | error failure =>
      rw [elementsOf_of_error hne hs] at h
      cases h
  | ok next =>
      obtain ⟨first, rest⟩ := next
      rw [elementsOf_of_split hs] at h
      cases hrest : elementsOf rest with
      | error failure =>
          rw [hrest] at h
          cases h
      | ok others =>
          rw [hrest] at h
          obtain ⟨rfl, rfl⟩ := List.cons.inj (Except.ok.inj h)
          exact ⟨rest, rfl, hrest⟩

/-- The value of a sequence is longer than that of each of its elements. -/
theorem length_value_lt_of_mem {tag : UInt8} {elements : List Element} {element : Element}
    {n : Nat} (h : element ∈ elements) (hs : (sequence tag elements).value.length < n) :
    element.value.length < n := by
  have hlen := length_encode element
  have hle : element.encode.length ≤ (elements.flatMap encode).length := by
    rw [List.flatMap_def]
    exact (List.sublist_flatten_of_mem (List.mem_map_of_mem h)).length_le
  have hvalue : (elements.flatMap encode).length < n := hs
  omega

/-- An element that its octets can be read as: the type takes one octet, and the value fewer than
`2 ^ 32`. -/
structure Writable (element : Element) : Prop where
  /-- The type takes one octet. -/
  isMultiOctet_tag : isMultiOctet element.tag = false
  /-- The value takes fewer than `2 ^ 32` octets. -/
  length_value_lt : element.value.length < 2 ^ 32

/-- The octets of some elements, one after the other, are made of these elements. -/
theorem elementsOf_flatMap_encode {elements : List Element}
    (h : ∀ element ∈ elements, element.Writable) :
    elementsOf (elements.flatMap encode) = .ok elements := by
  induction elements with
  | nil => exact elementsOf_nil
  | cons element elements ih =>
      rw [List.forall_mem_cons] at h
      have hsplit := split_encode_append h.1.isMultiOctet_tag h.1.length_value_lt
        (elements.flatMap encode)
      rw [List.flatMap_cons, elementsOf_of_split hsplit, ih h.2]
      rfl

/-- A sequence is read back as the elements that it was made of. -/
theorem asElements_sequence {tag : UInt8} {elements : List Element}
    (ht : ∀ t ∈ elements.map Element.tag, isMultiOctet t = false)
    (hs : (sequence tag elements).value.length < 2 ^ 32) :
    (sequence tag elements).asElements = .ok elements :=
  elementsOf_flatMap_encode fun element h =>
    ⟨ht element.tag (List.mem_map_of_mem h), length_value_lt_of_mem h hs⟩

/-- A sequence of like elements is read back as these elements. -/
theorem asElements_sequence_map {α : Type} {tag : UInt8} {f : α → Element} {xs : List α}
    (ht : ∀ x, isMultiOctet (f x).tag = false)
    (hs : (sequence tag (xs.map f)).value.length < 2 ^ 32) :
    (sequence tag (xs.map f)).asElements = .ok (xs.map f) := by
  refine asElements_sequence ?_ hs
  intro t h
  rw [List.map_map] at h
  obtain ⟨x, -, rfl⟩ := List.mem_map.mp h
  exact ht x

/-! ## Views of a value -/

@[simp] theorem asText_text (tag : UInt8) (s : String) : (text tag s).asText = .ok s := by
  simp only [asText, text, decodeText, Utf8.decode_encode]

@[simp] theorem expect_text (tag : UInt8) (s : String) : (text tag s).expect tag = .ok () :=
  if_pos rfl

/-- An element that is of an expected type has that type. -/
theorem tag_of_expect {element : Element} {tag : UInt8} (h : element.expect tag = .ok ()) :
    element.tag = tag := by
  rw [expect] at h
  split at h
  · assumption
  · cases h

@[simp] theorem asBool_boolean (tag : UInt8) (b : Bool) : (boolean tag b).asBool = .ok b := by
  cases b <;> rfl

@[simp] theorem asInt32_integer (tag : UInt8) (v : Int32) :
    (integer tag v.toInt).asInt32 = .ok v :=
  decodeInt32_encodeInteger v

/-- A sequence of texts is read back as these texts. -/
theorem asTexts_texts {tag : UInt8} {strings : List String}
    (hs : (texts tag strings).value.length < 2 ^ 32) :
    (texts tag strings).asTexts = .ok strings := by
  have hparts : (texts tag strings).asElements = .ok (strings.map (text Tag.octetString)) :=
    asElements_sequence_map (fun _ => isMultiOctet_octetString) hs
  rw [asTexts, hparts, ok_bind]
  exact mapM_map_eq_ok fun s _ => asText_text Tag.octetString s

end Element

end DirectoryAccess.Ber
