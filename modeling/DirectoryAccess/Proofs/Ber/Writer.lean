import DirectoryAccess.Ber.Writer

/-!
# Writing piece by piece

What a writer does between the opening and the closing of a sequence ends up as the
value of that sequence, behind its type and its length. Whatever was written before
stays as it was, and so do the places where the sequences around it start
(`closeSequence_append_openSequence`). So a sequence whose elements are written one
after the other is written as the whole of it is (`closeSequence_foldl_element`).
-/

namespace DirectoryAccess.Ber.Writer

/-- The writer with some more octets behind what it has written. -/
def append (w : Writer) (octets : Octets) : Writer := { w with output := w.output ++ octets }

/-- Octets are appended one behind the other. -/
@[simp] theorem append_append (w : Writer) (octets octets' : Octets) :
    (w.append octets).append octets' = w.append (octets ++ octets') := by
  rw [append, append, append, List.append_assoc]

/-- An element is written as its octets. -/
theorem element_eq_append (w : Writer) (e : Element) : w.element e = w.append e.encode := rfl

/-- A sequence that is closed holds what was written since it was opened; its type and its length
stand in front, and all that was written before is as it was. -/
theorem closeSequence_append_openSequence (w : Writer) (tag : UInt8) (octets : Octets) :
    ((w.openSequence tag).append octets).closeSequence = w.append (Element.encode ⟨tag, octets⟩) := by
  have hstart : (w.output ++ [tag]).length = w.output.length + 1 := by
    rw [List.length_append, List.length_singleton]
  have hsize : (w.output ++ [tag] ++ octets).length - (w.output.length + 1) = octets.length := by
    rw [List.length_append, hstart, Nat.add_sub_cancel_left]
  have hspliced : w.output ++ [tag] ++ (Length.ofNat octets.length).encode ++ octets =
      w.output ++ Element.encode ⟨tag, octets⟩ := by
    rw [Element.encode, List.append_assoc, List.append_assoc, List.singleton_append]
  simp only [closeSequence, openSequence, append]
  rw [hsize, ← hstart, List.take_left, List.drop_left, hspliced]

/-- Elements are written one behind the other. -/
theorem foldl_element (w : Writer) (elements : List Element) :
    elements.foldl element w = w.append (elements.flatMap Element.encode) := by
  induction elements generalizing w with
  | nil => rw [List.foldl_nil, List.flatMap_nil, append, List.append_nil]
  | cons e elements ih =>
      rw [List.foldl_cons, ih, element_eq_append, append_append, List.flatMap_cons]

/-- A sequence whose elements are written one after the other is written as a whole. -/
theorem closeSequence_foldl_element (w : Writer) (tag : UInt8) (elements : List Element) :
    (elements.foldl element (w.openSequence tag)).closeSequence =
      w.element (.sequence tag elements) := by
  rw [foldl_element, closeSequence_append_openSequence]
  rfl

end DirectoryAccess.Ber.Writer
