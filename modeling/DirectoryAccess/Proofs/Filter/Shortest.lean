import DirectoryAccess.Proofs.Ber.Shortest
import DirectoryAccess.Proofs.Filter.Nodes

/-!
# Written filters are the shortest

A filter fits in the room of the element that it was read from
(`fitsIn_of_decodeNested`), however its numbers, flags and lengths were written there.
The parts of a pattern are taken as they come, so a pattern that is read is written
as the very elements it was read from; the parts of an extensible assertion may come
in another order and more often, and then take less room when they are written.
-/

namespace DirectoryAccess

open Ber (Element Tag)
open Ber.Element (FitIn FitsIn)

/-! ## Parts of a pattern -/

namespace SubstringPattern

variable {pattern taken : SubstringPattern}

/-- A part that is taken in is the last one that is written. -/
theorem encode_of_withPart {part : Element} (h : withPart pattern part = .ok taken) :
    taken.encode = pattern.encode ++ [part] := by
  obtain ⟨tag, value⟩ := part
  obtain ⟨initial, any, final⟩ := pattern
  rw [withPart] at h
  split at h
  · cases h
  rename_i hfinal
  obtain rfl := Option.not_isSome_iff_eq_none.mp hfinal
  split at h
  · rename_i hinitial
    obtain ⟨rfl, hnone, hempty⟩ := hinitial
    obtain rfl := Option.isNone_iff_eq_none.mp hnone
    obtain rfl := List.isEmpty_iff.mp hempty
    cases h
    rfl
  split at h
  · rename_i hany
    obtain rfl : tag = anyTag := hany
    cases h
    simp [encode]
  split at h
  · rename_i hlast
    obtain rfl : tag = finalTag := hlast
    cases h
    simp [encode]
  · cases h

/-- The parts that are taken in are written behind those that were there. -/
theorem encode_of_foldlM_withPart {parts : List Element}
    (h : parts.foldlM withPart pattern = .ok taken) : taken.encode = pattern.encode ++ parts := by
  induction parts generalizing pattern with
  | nil =>
      cases h
      rw [List.append_nil]
  | cons part parts ih =>
      rw [List.foldlM_cons] at h
      obtain ⟨next, hnext, h⟩ := bind_eq_ok_iff.mp h
      rw [ih h, encode_of_withPart hnext, List.append_assoc, List.singleton_append]

end SubstringPattern

/-! ## Parts of an extensible assertion -/

namespace ExtensibleMatch.Parts

variable {parts taken : Parts}

/-- The elements of the parts that have been read so far. -/
def encode (parts : Parts) : List Element :=
  parts.rule.toList.map (Element.text ruleTag) ++
    parts.description.toList.map (Element.text descriptionTag) ++
    parts.value.toList.map (Element.mk valueTag) ++
    (if parts.dnAttributes then [.boolean dnAttributesTag true] else [])

/-- A part that is taken in takes no more room than it had, wherever it is written. A flag takes the
room of its own part, not that of a flag before it. -/
theorem fitIn_of_withPart {part : Element} (h : withPart parts part = .ok taken) :
    FitIn taken.encode (parts.encode ++ [part]) := by
  obtain ⟨rule, description, value, dnAttributes⟩ := parts
  rw [withPart] at h
  split at h
  · rename_i hrule
    obtain rfl := Option.isNone_iff_eq_none.mp hrule.2.1
    obtain ⟨text, htext, h⟩ := explain_bind_eq_ok_iff.mp h
    cases h
    have hfits : FitsIn (.text ruleTag text) part := .text htext
    simpa [encode] using FitIn.insert hfits [] (encode ⟨none, description, value, dnAttributes⟩)
  split at h
  · rename_i hdescription
    obtain rfl := Option.isNone_iff_eq_none.mp hdescription.2.1
    obtain ⟨text, htext, h⟩ := explain_bind_eq_ok_iff.mp h
    cases h
    have hfits : FitsIn (.text descriptionTag text) part := .text htext
    simpa [encode] using FitIn.insert hfits (encode ⟨rule, none, none, false⟩)
      (encode ⟨none, none, value, dnAttributes⟩)
  split at h
  · rename_i hvalue
    obtain rfl := Option.isNone_iff_eq_none.mp hvalue.2
    cases h
    have hfits : FitsIn ⟨valueTag, part.value⟩ part := Nat.le_refl _
    simpa [encode] using FitIn.insert hfits (encode ⟨rule, description, none, false⟩)
      (encode ⟨none, none, none, dnAttributes⟩)
  split at h
  · obtain ⟨flag, hflag, h⟩ := explain_bind_eq_ok_iff.mp h
    cases h
    have hnew : FitIn (encode ⟨none, none, none, flag⟩)
        (encode ⟨none, none, none, dnAttributes⟩ ++ [part]) := by
      cases flag with
      | false => exact .nil
      | true => exact FitIn.nil.append (.cons (.boolean hflag) .nil)
    simpa [encode] using (FitIn.refl (encode ⟨rule, description, value, false⟩)).append hnew
  · cases h

/-- The parts that are taken in take no more room than they had. -/
theorem fitIn_of_foldlM_withPart {elements : List Element}
    (h : elements.foldlM withPart parts = .ok taken) :
    FitIn taken.encode (parts.encode ++ elements) := by
  induction elements generalizing parts with
  | nil =>
      cases h
      rw [List.append_nil]
      exact .refl _
  | cons element elements ih =>
      rw [List.foldlM_cons] at h
      obtain ⟨next, hnext, h⟩ := bind_eq_ok_iff.mp h
      have hstep := (fitIn_of_withPart hnext).append (.refl elements)
      rw [List.append_assoc, List.singleton_append] at hstep
      exact (ih h).trans hstep

end ExtensibleMatch.Parts

/-! ## Filters -/

namespace Filter

/-- The elements of a comparison fit in the room of the element that it was read from. -/
theorem fitsIn_of_decodeAssertion {tag : UInt8} {element : Element} {description : String}
    {value : Octets} (h : decodeAssertion element = .ok (description, value)) :
    FitsIn (.sequence tag [.text Tag.octetString description, ⟨Tag.octetString, value⟩])
      element := by
  rw [decodeAssertion] at h
  obtain ⟨parts, hparts, h⟩ := explain_bind_eq_ok_iff.mp h
  split at h
  · obtain ⟨name, hname, h⟩ := explain_bind_eq_ok_iff.mp h
    cases h
    exact .sequence hparts (.cons (.text hname) (.refl _))
  · cases h

/-- A filter fits in the room of the element that it was read from. -/
theorem fitsIn_of_decodeNested {levels : Nat} {element : Element} {filter : Filter}
    (h : decodeNested levels element = .ok filter) : filter.encode.FitsIn element := by
  induction levels generalizing element filter with
  | zero => cases h
  | succ levels ih =>
      have hmembers {parts : List Element} {filters : List Filter}
          (hfilters : parts.mapM (decodeNested levels) = .ok filters) :
          FitIn (encodeAll filters) parts := by
        rw [encodeAll_eq_map]
        exact .map (fun _ _ => ih) hfilters
      cases reads_of_decodeNested h with
      | all hparts hfilters =>
          rw [encode]
          exact .sequence hparts (hmembers hfilters)
      | any hparts hfilters =>
          rw [encode]
          exact .sequence hparts (hmembers hfilters)
      | not hinner hfilter =>
          rw [encode]
          exact Nat.le_trans (ih hfilter).length_encode_le
            (Element.length_encode_le_of_decode hinner).1
      | compare hassertion =>
          rw [encode]
          exact fitsIn_of_decodeAssertion hassertion
      | substrings hparts hname hpattern htaken =>
          have hsame := SubstringPattern.encode_of_foldlM_withPart htaken
          rw [encode, hsame]
          exact .sequence hparts
            (.cons (.text hname) (.cons (.sequence hpattern (.refl _)) .nil))
      | present hdescription =>
          rw [encode]
          exact .text hdescription
      | extensible hparts htaken =>
          rw [encode]
          exact .sequence hparts (ExtensibleMatch.Parts.fitIn_of_foldlM_withPart htaken)

end Filter

end DirectoryAccess
