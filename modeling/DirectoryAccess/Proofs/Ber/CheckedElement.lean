import DirectoryAccess.Proofs.Ber.Checked
import DirectoryAccess.Proofs.Checking

/-!
# Elements with every bound checked

Octets are read as an element, and a value as the elements that it is made of, by
places in them: a header is read at a place, the slice behind it is the value, and
the next element begins where that ends. Here each slice and each difference is
checked. As every header says no more than the octets hold, none is out of bounds.
-/

namespace DirectoryAccess.Ber

namespace Checked

/-! ## One element after the other -/

/-- The element at a place, and the place behind it. -/
def elementAt (octets : Octets) (position : Nat) : Option (Except Failure (Element × Nat)) := do
  let rest ← slice? octets position octets.length
  match ← header rest rest.length with
  | .error failure => return .error failure
  | .ok head =>
    let start := position + head.width
    let stop := start + head.size
    return .ok (⟨head.tag, ← slice? octets start stop⟩, stop)

section ElementAt

variable {octets : Octets} {position : Nat}

/-- Where there is no header there is no element. -/
theorem elementAt_of_error {failure : Failure} (hposition : position ≤ octets.length)
    (h : Header.decode (octets.drop position) = .error failure) :
    elementAt octets position = some (.error failure) := by
  rw [elementAt, slice?_eq hposition (Nat.le_refl _), List.take_length]
  simp only [Option.bind_eq_bind, Option.bind_some, header_eq, h]
  rfl

/-- Where there is a header, the element is cut out behind it without a step beyond the octets. -/
theorem elementAt_of_decode {head : Header} (hposition : position ≤ octets.length)
    (h : Header.decode (octets.drop position) = .ok head) :
    elementAt octets position =
      some (.ok (⟨head.tag, (octets.drop (position + head.width)).take head.size⟩,
        position + (head.width + head.size))) := by
  have hle := (Header.le_length_of_decode h).2
  rw [List.length_drop] at hle
  have hslice : slice? octets (position + head.width) (position + head.width + head.size) =
      some ((octets.drop (position + head.width)).take head.size) := by
    rw [slice?_eq (Nat.le_add_right _ _) (by omega), List.drop_take, Nat.add_sub_cancel_left]
  rw [elementAt, slice?_eq hposition (Nat.le_refl _), List.take_length]
  simp only [Option.bind_eq_bind, Option.bind_some, header_eq, h]
  rw [hslice, Nat.add_assoc]
  rfl

/-- An element that is found takes octets, and ends inside those that there are. -/
theorem lt_of_elementAt {element : Element} {stop : Nat}
    (h : elementAt octets position = some (.ok (element, stop))) :
    position < stop ∧ stop ≤ octets.length := by
  rcases Nat.lt_or_ge octets.length position with hposition | hposition
  · rw [elementAt, slice?, if_neg fun hbounds => Nat.not_lt.mpr hbounds.1 hposition] at h
    cases h
  · cases hd : Header.decode (octets.drop position) with
    | error failure =>
        rw [elementAt_of_error hposition hd] at h
        cases h
    | ok head =>
        rw [elementAt_of_decode hposition hd] at h
        cases h
        have hle := Header.le_length_of_decode hd
        rw [List.length_drop] at hle
        omega

end ElementAt

/-- The elements from a place on, behind those found so far, which are held backwards. -/
def elementsFrom (octets : Octets) (found : List Element) (position : Nat) :
    Checking (List Element) :=
  if position < octets.length then
    match h : elementAt octets position with
    | none => none
    | some (.error failure) => Checking.fail failure
    | some (.ok (element, stop)) =>
      have := lt_of_elementAt h
      elementsFrom octets (element :: found) stop
  else Checking.ofExcept (.ok found.reverse)
termination_by octets.length - position

section ElementsFrom

variable {octets : Octets} {found : List Element} {position : Nat}

/-- Octets that begin with no element are refused as a list of elements. -/
theorem elementsFrom_of_error {failure : Failure} (hposition : position < octets.length)
    (h : elementAt octets position = some (.error failure)) :
    elementsFrom octets found position = Checking.fail failure := by
  rw [elementsFrom, if_pos hposition]
  split <;> rename_i hat <;> rw [h] at hat
  · cases hat
  · cases hat
    rfl
  · cases hat

/-- Behind an element the others are looked for. -/
theorem elementsFrom_of_ok {element : Element} {stop : Nat}
    (h : elementAt octets position = some (.ok (element, stop))) :
    elementsFrom octets found position = elementsFrom octets (element :: found) stop := by
  obtain ⟨hforward, hstop⟩ := lt_of_elementAt h
  rw [elementsFrom, if_pos (Nat.lt_of_lt_of_le hforward hstop)]
  split <;> rename_i hat <;> rw [h] at hat
  · cases hat
  · cases hat
  · cases hat
    rfl

/-- From a place on, octets are made of the elements that can be split off there, each of which
takes some octets, so that the loop ends. -/
theorem elementsFrom_eq (hposition : position ≤ octets.length) :
    elementsFrom octets found position =
      Checking.ofExcept (Element.splitAll found (octets.drop position)) := by
  induction hn : octets.length - position using Nat.strongRecOn generalizing found position with
  | _ n ih =>
      rcases Nat.lt_or_ge position octets.length with hlt | hge
      · have hne : octets.drop position ≠ [] := by
          rw [ne_eq, List.drop_eq_nil_iff]
          omega
        cases hd : Header.decode (octets.drop position) with
        | error failure =>
            rw [Element.splitAll_of_error found hne (Element.split_of_decode_error hd)]
            exact elementsFrom_of_error hlt (elementAt_of_error hposition hd)
        | ok head =>
            have hat := elementAt_of_decode hposition hd
            obtain ⟨hforward, hstop⟩ := lt_of_elementAt hat
            rw [Element.splitAll_of_split found (Element.split_of_decode hd), List.drop_drop,
              List.drop_drop, elementsFrom_of_ok hat]
            exact ih _ (by omega) hstop rfl
      · rw [elementsFrom, if_neg (Nat.not_lt.mpr hge), List.drop_eq_nil_iff.mpr hge,
          Element.splitAll_nil]

end ElementsFrom

/-! ## The only element -/

/-- The element that some octets are, with nothing behind it. -/
def onlyElement (octets : Octets) : Option (Except Failure Element) := do
  match ← header octets octets.length with
  | .error failure => return .error failure
  | .ok head =>
    let stop := head.width + head.size
    if stop ≠ octets.length then
      return .error (Fault.trailing (← sub? octets.length stop))
    return .ok ⟨head.tag, ← slice? octets head.width stop⟩

/-- The only element of some octets is read without a step beyond them. -/
theorem onlyElement_eq (octets : Octets) : onlyElement octets = some (Element.decode octets) := by
  cases hd : Header.decode octets with
  | error failure =>
      rw [onlyElement, header_eq, hd, Element.decode, Element.split_of_decode_error hd]
      rfl
  | ok head =>
      have hle := (Header.le_length_of_decode hd).2
      rw [onlyElement, header_eq, hd, Element.decode, Element.split_of_decode hd]
      by_cases hstop : head.width + head.size = octets.length
      · have hslice : slice? octets head.width octets.length = some (octets.drop head.width) := by
          rw [slice?_eq (by omega) (Nat.le_refl _), List.take_length]
        have hvalue : (octets.drop head.width).take head.size = octets.drop head.width :=
          List.take_of_length_le (by rw [List.length_drop]; omega)
        simp only [hstop, hslice, hvalue, ne_eq, not_true_eq_false, if_false, List.drop_length,
          Option.bind_eq_bind, Option.bind_some]
        rfl
      · obtain ⟨b, rest, hrest⟩ : ∃ b rest, octets.drop (head.width + head.size) = b :: rest :=
          List.exists_cons_of_ne_nil (by rw [ne_eq, List.drop_eq_nil_iff]; omega)
        have hsub : sub? octets.length (head.width + head.size) = some (b :: rest).length := by
          rw [sub?_eq hle, ← hrest, List.length_drop]
        simp only [hstop, hsub, hrest, ne_eq, not_false_eq_true, if_true, Option.bind_eq_bind,
          Option.bind_some]
        rfl

end Checked

namespace Element

/-! ## Views of a value -/

/-- The element that some octets are, with nothing behind it. -/
def decodeChecked (octets : Octets) : Checking Element := Checked.onlyElement octets

/-- The elements that the value is made of. -/
def asElementsChecked (element : Element) : Checking (List Element) :=
  Checked.elementsFrom element.value [] 0

/-- The value as a number of at most 64 bits. -/
def asIntegerChecked (element : Element) : Checking Int := Checked.integer element.value

/-- The value as a number of 32 bits. -/
def asInt32Checked (element : Element) : Checking Int32 := do
  let v ← element.asIntegerChecked
  Checking.ofExcept (toInt32 v)

/-- The value as the choice that a number of 32 bits stands for. -/
def asChoiceChecked {α : Type} (ofCode : Int32 → Except Failure α) (element : Element) :
    Checking α := do
  let code ← element.asInt32Checked
  Checking.ofExcept (ofCode code)

/-- The value as a sequence of texts. -/
def asTextsChecked (element : Element) : Checking (List String) := do
  let parts ← element.asElementsChecked
  Checking.ofExcept (parts.mapM asText)

/-- Octets are read as an element without a step beyond them. -/
theorem decodeChecked_eq (octets : Octets) :
    decodeChecked octets = Checking.ofExcept (decode octets) :=
  Checked.onlyElement_eq octets

/-- An element is seen as its elements without a step beyond its value. -/
theorem asElementsChecked_eq (e : Element) :
    e.asElementsChecked = Checking.ofExcept e.asElements :=
  Checked.elementsFrom_eq (Nat.zero_le _)

/-- An element is seen as a 32-bit number without a step beyond its value. -/
theorem asInt32Checked_eq (e : Element) : e.asInt32Checked = Checking.ofExcept e.asInt32 :=
  Checking.bind_eq (Checked.integer_eq e.value) fun _ _ => rfl

/-- An element is seen as a choice among a few without a step beyond its value. -/
theorem asChoiceChecked_eq {α : Type} (ofCode : Int32 → Except Failure α) (e : Element) :
    e.asChoiceChecked ofCode = Checking.ofExcept (e.asInt32 >>= ofCode) :=
  Checking.bind_eq e.asInt32Checked_eq fun _ _ => rfl

/-- An element is seen as a list of texts without a step beyond its value. -/
theorem asTextsChecked_eq (e : Element) : e.asTextsChecked = Checking.ofExcept e.asTexts :=
  Checking.bind_eq e.asElementsChecked_eq fun _ _ => rfl

end Element

end DirectoryAccess.Ber
