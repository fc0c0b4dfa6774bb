import DirectoryAccess.Control
import DirectoryAccess.Proofs.Operation.Codec
import DirectoryAccess.Proofs.Operation.Shortest

/-!
# Controls read back

A control is read back from its element, and so is a list of controls of any type.
Reading also accepts a criticality of false and, in front of no value, one criticality
after another, of which the last counts; what is read is written without them and so
fits in the room of the element that it was read from.
-/

namespace DirectoryAccess

open Ber (Element Tag)
open Ber.Element

/-- Saying which member of a list could not be read makes no difference where all are read. -/
theorem mapM_zipIdx_eq_ok_iff {α β : Type} {f : α → Except Failure β} {xs : List α} {ys : List β}
    (message : Nat → String) (k : Nat) :
    (xs.zipIdx k).mapM (fun (x, index) => explain (message index) (f x)) = .ok ys ↔
      xs.mapM f = .ok ys := by
  induction xs generalizing ys k with
  | nil => rfl
  | cons x xs ih =>
      rw [List.zipIdx_cons, List.mapM_cons, List.mapM_cons]
      simp only [bind_eq_ok_iff, explain_eq_ok_iff, ih]

namespace Control

variable {element : Element}

/-- The elements behind the name of a control. -/
def encodeOptional (control : Control) : List Element :=
  (if control.critical then [.boolean Tag.boolean true] else []) ++
    control.value.toList.map (Element.mk Tag.octetString)

/-- A control is written as its identifier and what of the rest differs from the default. -/
theorem encode_eq (control : Control) : control.encode =
    .sequence Tag.sequence (.text Tag.octetString control.oid.text :: control.encodeOptional) := rfl

/-! ## Reading back -/

/-- A control is read back from its element. -/
theorem decode_encode {control : Control} (hs : control.encode.value.length < 2 ^ 32) :
    decode control.encode = .ok control := by
  obtain ⟨oid, critical, value⟩ := control
  have hparts : (encode ⟨oid, critical, value⟩).asElements =
      .ok (.text Tag.octetString oid.text :: encodeOptional ⟨oid, critical, value⟩) := by
    refine asElements_sequence ?_ hs
    cases critical <;> cases value <;> simp
  rw [decode, hparts]
  cases critical <;> cases value <;> simp [encodeOptional, withParts, Tag.boolean, Tag.octetString]

/-- A list of controls is read where each of them is. -/
theorem decodeList_eq_ok_iff {controls : List Control} :
    decodeList element = .ok controls ↔
      ∃ parts, element.asElements = .ok parts ∧ parts.mapM decode = .ok controls := by
  rw [decodeList, explain_bind_eq_ok_iff]
  exact exists_congr fun parts => and_congr_right fun _ =>
    mapM_zipIdx_eq_ok_iff (fun index => s!"cannot decode control {index}") 0

/-- A list of controls is read back from its element. -/
theorem decodeList_encodeList {tag : UInt8} {controls : List Control}
    (hs : (encodeList tag controls).value.length < 2 ^ 32) :
    decodeList (encodeList tag controls) = .ok controls := by
  refine decodeList_eq_ok_iff.mpr ⟨controls.map encode, ?_, ?_⟩
  · exact asElements_sequence_map (fun _ => Ber.isMultiOctet_sequence) hs
  · exact mapM_map_eq_ok fun control h =>
      decode_encode (length_value_lt_of_mem (List.mem_map_of_mem h) hs)

/-! ## Room -/

/-- The parts that are taken into a control take no more room than they had, and the control keeps
its name. A flag takes the room of its own part, not that of the flag before it. -/
theorem fitIn_of_withParts {control taken : Control} {parts : List Element}
    (h : withParts control parts = .ok taken) :
    taken.oid = control.oid ∧ FitIn taken.encodeOptional (control.encodeOptional ++ parts) := by
  induction parts generalizing control with
  | nil =>
      cases h
      rw [List.append_nil]
      exact ⟨rfl, .refl _⟩
  | cons part parts ih =>
      obtain ⟨oid, critical, value⟩ := control
      rw [withParts] at h
      split at h
      · rename_i hpart
        obtain rfl := Option.isNone_iff_eq_none.mp hpart.2
        obtain ⟨flag, hflag, h⟩ := explain_bind_eq_ok_iff.mp h
        obtain ⟨hoid, hfit⟩ := ih h
        refine ⟨hoid, hfit.trans ?_⟩
        have hnew : FitIn (encodeOptional ⟨oid, flag, none⟩ ++ parts) (part :: parts) := by
          cases flag with
          | false => exact (FitIn.refl parts).skip part
          | true => exact .cons (.boolean hflag) (.refl parts)
        exact FitIn.nil.append hnew
      split at h
      · obtain ⟨tag, octets⟩ := part
        rename_i hpart
        obtain ⟨rfl, hnone⟩ := hpart
        obtain rfl := Option.isNone_iff_eq_none.mp hnone
        obtain ⟨hoid, hfit⟩ := ih h
        refine ⟨hoid, hfit.trans ?_⟩
        simp only [encodeOptional, Option.toList_some, Option.toList_none, List.map_cons,
          List.map_nil, List.append_assoc, List.cons_append, List.nil_append]
        exact .refl _
      · cases h

/-- A control fits in the room of the element that it was read from. -/
theorem fitsIn_of_decode {control : Control} (h : decode element = .ok control) :
    control.encode.FitsIn element := by
  obtain ⟨parts, hparts, h⟩ := explain_bind_eq_ok_iff.mp h
  split at h
  · cases h
  split at h
  · cases h
  obtain ⟨oid, hoid, h⟩ := explain_bind_eq_ok_iff.mp h
  obtain ⟨hsame, hfit⟩ := fitIn_of_withParts h
  rw [encode_eq, hsame]
  exact .sequence hparts (.cons (Oid.fitsIn_of_ofString hoid) hfit)

/-- Controls fit in the room of the element that they were read from. -/
theorem fitsIn_of_decodeList {tag : UInt8} {controls : List Control}
    (h : decodeList element = .ok controls) : (encodeList tag controls).FitsIn element := by
  obtain ⟨parts, hparts, hcontrols⟩ := decodeList_eq_ok_iff.mp h
  exact .sequence hparts (.map (fun _ _ => fitsIn_of_decode) hcontrols)

end Control

end DirectoryAccess
