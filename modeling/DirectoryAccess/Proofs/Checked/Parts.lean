import DirectoryAccess.Attribute
import DirectoryAccess.Control
import DirectoryAccess.Proofs.Ber.CheckedElement
import DirectoryAccess.Proofs.Outcome

/-!
# Parts of messages with every bound checked

Attributes, modifications, controls and outcomes are sequences whose parts are
looked at by their places, once the number of parts has been found to be right.
Here each place is checked. What a part is looked at as has no bounds of its own, or
has been checked before.
-/

namespace DirectoryAccess

open Ber (Element)

/-! ## Attributes -/

namespace Attribute

/-- The attribute that an element is. -/
def decodeChecked (element : Element) : Checking Attribute := do
  let parts ← Checking.explain "attribute is not a valid sequence" element.asElementsChecked
  if parts.length ≠ 2 then
    Checking.fail (.elementCount "attribute sequence" "2" parts.length)
  else
    let name ← Checking.explain "cannot decode the attribute description"
      (Checking.view Element.asText parts 0)
    let values ← Checking.explain s!"cannot decode the values of attribute {name}"
      (Checking.part parts 1 >>= Element.asElementsChecked)
    return ⟨name, values.map (·.value)⟩

/-- An attribute is read off an element without a look beyond its two parts. -/
theorem decodeChecked_eq (e : Element) : decodeChecked e = Checking.ofExcept (decode e) := by
  refine Checking.bind_eq (Checking.explain_eq _ e.asElementsChecked_eq) fun parts _ => ?_
  rcases parts with _ | ⟨name, _ | ⟨values, _ | ⟨part, parts⟩⟩⟩
  · rfl
  · rfl
  · refine Checking.bind_eq (Checking.explain_eq _ rfl) fun name _ => ?_
    refine Checking.bind_eq (Checking.explain_eq _ values.asElementsChecked_eq) fun values _ => ?_
    rfl
  · rfl

/-- The list of attributes that an element is. -/
def decodeListChecked (element : Element) : Checking (List Attribute) := do
  let parts ← Checking.explain "attribute list is not a valid sequence" element.asElementsChecked
  parts.mapM decodeChecked

/-- A list of attributes is read off an element without a look beyond the parts of any of them. -/
theorem decodeListChecked_eq (e : Element) :
    decodeListChecked e = Checking.ofExcept (decodeList e) :=
  Checking.bind_eq (Checking.explain_eq _ e.asElementsChecked_eq) fun parts _ =>
    Checking.mapM_eq decodeChecked_eq parts

end Attribute

namespace Modification

/-- The modification that an element is. -/
def decodeChecked (element : Element) : Checking Modification := do
  let parts ← Checking.explain "modification is not a valid sequence" element.asElementsChecked
  if parts.length ≠ 2 then
    Checking.fail (.elementCount "modification sequence" "2" parts.length)
  else
    let change ← Checking.explain "cannot decode the modification type"
      (Checking.part parts 0 >>= Element.asChoiceChecked Change.ofCode)
    let target ← Checking.part parts 1 >>= Attribute.decodeChecked
    return ⟨change, target⟩

/-- A modification is read off an element without a look beyond its two parts. -/
theorem decodeChecked_eq (e : Element) : decodeChecked e = Checking.ofExcept (decode e) := by
  refine Checking.bind_eq (Checking.explain_eq _ e.asElementsChecked_eq) fun parts _ => ?_
  rcases parts with _ | ⟨change, _ | ⟨target, _ | ⟨part, parts⟩⟩⟩
  · rfl
  · rfl
  · refine Checking.bind_eq (Checking.explain_eq _ (change.asChoiceChecked_eq _)) fun change _ => ?_
    exact Checking.bind_eq (Attribute.decodeChecked_eq target) fun target _ => rfl
  · rfl

end Modification

/-! ## Controls -/

namespace Control

/-- The control that an element is. -/
def decodeChecked (element : Element) : Checking Control := do
  let parts ← Checking.explain "control is not a valid sequence" element.asElementsChecked
  if parts.isEmpty ∨ 3 < parts.length then
    Checking.fail (.elementCount "control sequence" "between 1 and 3" parts.length)
  else
    let oid ← Checking.explain "cannot decode the control OID"
      (Checking.view (fun name => name.asText >>= Oid.ofString) parts 0)
    let rest ← Checking.behind parts 1
    Checking.ofExcept (withParts ⟨oid, false, none⟩ rest)

/-- A control is read off an element without a look beyond its parts. -/
theorem decodeChecked_eq (e : Element) : decodeChecked e = Checking.ofExcept (decode e) := by
  refine Checking.bind_eq (Checking.explain_eq _ e.asElementsChecked_eq) fun parts _ => ?_
  rcases parts with _ | ⟨name, rest⟩
  · rfl
  by_cases hcount : 3 < (name :: rest).length
  · rw [if_pos (.inr hcount)]
    simp only [hcount, if_true]
    rfl
  · have hbehind : Checking.behind (name :: rest) 1 = Checking.ofExcept (.ok rest) :=
      Checking.behind_eq (Nat.le_add_left _ _)
    rw [if_neg (by simp only [List.isEmpty_cons, Bool.false_eq_true, false_or, hcount,
      not_false_eq_true])]
    simp only [hcount, if_false, hbehind]
    exact Checking.bind_eq (Checking.explain_eq _ rfl) fun oid _ => rfl

/-- The list of controls that an element of any type is. -/
def decodeListChecked (element : Element) : Checking (List Control) := do
  let parts ← Checking.explain "controls element is not a valid sequence" element.asElementsChecked
  parts.zipIdx.mapM fun (part, index) =>
    Checking.explain s!"cannot decode control {index}" (decodeChecked part)

/-- A list of controls is read off an element without a look beyond the parts of any of them. -/
theorem decodeListChecked_eq (e : Element) :
    decodeListChecked e = Checking.ofExcept (decodeList e) :=
  Checking.bind_eq (Checking.explain_eq _ e.asElementsChecked_eq) fun parts _ =>
    Checking.mapM_eq (fun (part, _) => Checking.explain_eq _ (decodeChecked_eq part)) parts.zipIdx

end Control

/-! ## Outcomes -/

namespace Outcome

/-- The outcome at the front of a response's elements, and the number of those that it takes. -/
def scanChecked (elements : List Element) : Checking (Outcome × Nat) :=
  if elements.length < 3 then
    Checking.fail (.elementCount "response" "at least 3" elements.length)
  else do
    let code ← Checking.explain "cannot decode the result code"
      (Checking.part elements 0 >>= Element.asInt32Checked)
    let matchedDn ← Checking.explain "cannot decode the matched DN"
      (Checking.view Element.asText elements 1)
    let diagnostic ← Checking.explain "cannot decode the diagnostic message"
      (Checking.view Element.asText elements 2)
    match elements[3]?.filter (·.tag = referralsTag) with
    | some element => do
      let referrals ← Checking.explain "cannot decode the referral URLs" element.asTextsChecked
      return (⟨⟨code⟩, matchedDn, diagnostic, referrals⟩, 4)
    | none => return (⟨⟨code⟩, matchedDn, diagnostic, []⟩, 3)

/-- The elements behind an outcome are the last ones of a response. -/
theorem suffix_of_decode {elements rest : List Element} {outcome : Outcome}
    (h : decode elements = .ok (outcome, rest)) : rest <:+ elements := by
  obtain ⟨front, -, rfl⟩ := exists_of_decode h
  exact List.suffix_append front rest

/-- An outcome takes the elements that are not left behind it. -/
theorem scanChecked_eq (elements : List Element) :
    scanChecked elements = Checking.ofExcept (decode elements >>= fun (outcome, rest) =>
      .ok (outcome, elements.length - rest.length)) := by
  rcases elements with _ | ⟨first, _ | ⟨second, _ | ⟨third, rest⟩⟩⟩
  · rfl
  · rfl
  · rfl
  · rw [scanChecked, if_neg (by simp only [List.length_cons]; omega), decode]
    simp only [bind_assoc]
    refine Checking.bind_eq (Checking.explain_eq _ first.asInt32Checked_eq) fun code _ => ?_
    refine Checking.bind_eq (Checking.explain_eq _ rfl) fun matchedDn _ => ?_
    refine Checking.bind_eq (Checking.explain_eq _ rfl) fun diagnostic _ => ?_
    cases rest with
    | nil => rfl
    | cons element rest =>
        rw [decodeReferrals]
        by_cases htag : element.tag = referralsTag
        · have hfilter : Option.filter (·.tag = referralsTag) (some element) = some element :=
            Option.filter_some_pos (decide_eq_true htag)
          have hcount : (first :: second :: third :: element :: rest).length - rest.length = 4 := by
            simp only [List.length_cons]
            omega
          simp only [List.getElem?_cons_succ, List.getElem?_cons_zero, hfilter, if_pos htag,
            bind_assoc, pure_bind, hcount]
          exact Checking.bind_eq (Checking.explain_eq _ element.asTextsChecked_eq) fun _ _ => rfl
        · have hfilter : Option.filter (·.tag = referralsTag) (some element) = none :=
            Option.filter_some_neg (by rw [decide_eq_false htag])
          have hcount : (first :: second :: third :: element :: rest).length -
              (element :: rest).length = 3 := by
            simp only [List.length_cons]
            omega
          simp only [List.getElem?_cons_succ, List.getElem?_cons_zero, hfilter, if_neg htag,
            pure_bind, hcount]
          rfl

/-- The outcome at the front of a response's elements, and the elements behind it. -/
def decodeChecked (elements : List Element) : Checking (Outcome × List Element) := do
  let (outcome, count) ← scanChecked elements
  let rest ← Checking.behind elements count
  return (outcome, rest)

/-- An outcome is read off the first of some elements without a look beyond them. -/
theorem decodeChecked_eq (elements : List Element) :
    decodeChecked elements = Checking.ofExcept (decode elements) := by
  rw [decodeChecked, scanChecked_eq]
  cases h : decode elements with
  | error failure => rfl
  | ok found =>
      obtain ⟨outcome, rest⟩ := found
      have hsuffix := suffix_of_decode h
      have hbehind : Checking.behind elements (elements.length - rest.length) =
          Checking.ofExcept (.ok rest) := by
        rw [Checking.behind_eq (Nat.sub_le _ _), ← List.suffix_iff_eq_drop.mp hsuffix]
      simp only [ok_bind, Checking.ofExcept_ok_bind, hbehind]
      rfl

end Outcome

end DirectoryAccess
