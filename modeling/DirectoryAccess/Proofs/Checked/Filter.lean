import DirectoryAccess.Filter.Codec
import DirectoryAccess.Proofs.Ber.CheckedElement

/-!
# Filters with every bound checked

The assertions of a filter look at their two parts by their places, and a negation
takes the one element that its value is. A filter is checked as deep as it is read,
so the filters inside a connective are checked by induction on the levels.
-/

namespace DirectoryAccess

open Ber (Element showTag)

namespace Filter

/-- The attribute and the value of an assertion that compares. -/
def decodeAssertionChecked (element : Element) : Checking (String × Octets) := do
  let parts ← Checking.explain "attribute value assertion is not a valid sequence"
    element.asElementsChecked
  if parts.length ≠ 2 then
    Checking.fail (.elementCount "attribute value assertion" "2" parts.length)
  else
    let description ← Checking.explain "cannot decode the assertion attribute"
      (Checking.view Element.asText parts 0)
    let value ← Checking.part parts 1
    return (description, value.value)

/-- An assertion about a value is read off an element without a look beyond its two parts. -/
theorem decodeAssertionChecked_eq (e : Element) :
    decodeAssertionChecked e = Checking.ofExcept (decodeAssertion e) := by
  refine Checking.bind_eq (Checking.explain_eq _ e.asElementsChecked_eq) fun parts _ => ?_
  rcases parts with _ | ⟨description, _ | ⟨value, _ | ⟨part, parts⟩⟩⟩
  · rfl
  · rfl
  · exact Checking.bind_eq (Checking.explain_eq _ rfl) fun description _ => rfl
  · rfl

/-- The filter of an element about the parts of a value. -/
def decodeSubstringsChecked (element : Element) : Checking Filter := do
  let parts ← Checking.explain "substring filter is not a valid sequence" element.asElementsChecked
  if parts.length ≠ 2 then
    Checking.fail (.elementCount "substring filter" "2" parts.length)
  else
    let description ← Checking.explain "cannot decode the substring filter attribute"
      (Checking.view Element.asText parts 0)
    let components ← Checking.explain "cannot decode the substring components"
      (Checking.part parts 1 >>= Element.asElementsChecked)
    let pattern ← Checking.ofExcept
      (components.foldlM SubstringPattern.withPart ⟨none, [], none⟩)
    Checking.ofExcept (explain "invalid substring filter" (ofSubstrings description pattern))

/-- A substring assertion is read off an element without a look beyond its parts. -/
theorem decodeSubstringsChecked_eq (e : Element) :
    decodeSubstringsChecked e = Checking.ofExcept (decodeSubstrings e) := by
  refine Checking.bind_eq (Checking.explain_eq _ e.asElementsChecked_eq) fun parts _ => ?_
  rcases parts with _ | ⟨description, _ | ⟨pattern, _ | ⟨part, parts⟩⟩⟩
  · rfl
  · rfl
  · refine Checking.bind_eq (Checking.explain_eq _ rfl) fun description _ => ?_
    refine Checking.bind_eq (Checking.explain_eq _ pattern.asElementsChecked_eq) fun parts _ => ?_
    exact Checking.bind_eq rfl fun pattern _ => rfl
  · rfl

/-- The filter of an element that names its own matching rule. -/
def decodeExtensibleChecked (element : Element) : Checking Filter := do
  let elements ← Checking.explain "extensible match filter is not a valid sequence"
    element.asElementsChecked
  let parts ← Checking.ofExcept
    (elements.foldlM ExtensibleMatch.Parts.withPart ⟨none, none, none, false⟩)
  match parts.value with
  | none => Checking.fail (.malformed "extensible match filter has no assertion value")
  | some value =>
    Checking.ofExcept (explain "invalid extensible match filter"
      (ofExtensible ⟨parts.rule, parts.description, value, parts.dnAttributes⟩))

/-- An extensible assertion is read off an element without a look beyond its parts. -/
theorem decodeExtensibleChecked_eq (e : Element) :
    decodeExtensibleChecked e = Checking.ofExcept (decodeExtensible e) := by
  refine Checking.bind_eq (Checking.explain_eq _ e.asElementsChecked_eq) fun elements _ => ?_
  refine Checking.bind_eq rfl fun parts _ => ?_
  cases parts.value with
  | none => rfl
  | some value => rfl

/-- The filter that an element is, if it is nested in fewer than `levels` levels. -/
def decodeNestedChecked : Nat → Element → Checking Filter
  | 0, _ =>
    Checking.fail (.malformed s!"filter nesting exceeds the maximum depth {maxDepth}")
  | levels + 1, element =>
    if element.tag = allTag then do
      let parts ← Checking.explain "cannot decode the filter set" element.asElementsChecked
      return .all (← parts.mapM (decodeNestedChecked levels))
    else if element.tag = anyTag then do
      let parts ← Checking.explain "cannot decode the filter set" element.asElementsChecked
      return .any (← parts.mapM (decodeNestedChecked levels))
    else if element.tag = notTag then do
      let inner ← Checking.explain "cannot decode the NOT filter component"
        (Element.decodeChecked element.value)
      return .not (← decodeNestedChecked levels inner)
    else if element.tag = substringsTag then decodeSubstringsChecked element
    else if element.tag = presentTag then do
      return .present (← Checking.ofExcept
        (explain "cannot decode the presence filter attribute" element.asText))
    else if element.tag = extensibleTag then decodeExtensibleChecked element
    else
      match Comparison.ofTag? element.tag with
      | some comparison => do
        let (description, value) ← decodeAssertionChecked element
        return .compare comparison description value
      | none => Checking.fail (.malformed s!"unsupported filter type {showTag element.tag}")

/-- A filter within others is read off an element without a look beyond its parts, at any depth. -/
theorem decodeNestedChecked_eq (levels : Nat) (e : Element) :
    decodeNestedChecked levels e = Checking.ofExcept (decodeNested levels e) := by
  induction levels generalizing e with
  | zero => rfl
  | succ levels ih =>
      rw [decodeNestedChecked, decodeNested]
      split
      · refine Checking.bind_eq (Checking.explain_eq _ e.asElementsChecked_eq) fun parts _ => ?_
        exact Checking.bind_eq (Checking.mapM_eq ih parts) fun filters _ => rfl
      split
      · refine Checking.bind_eq (Checking.explain_eq _ e.asElementsChecked_eq) fun parts _ => ?_
        exact Checking.bind_eq (Checking.mapM_eq ih parts) fun filters _ => rfl
      split
      · refine Checking.bind_eq (Checking.explain_eq _ (Element.decodeChecked_eq e.value))
          fun inner _ => ?_
        exact Checking.bind_eq (ih inner) fun filter _ => rfl
      split
      · exact decodeSubstringsChecked_eq e
      split
      · exact Checking.bind_eq rfl fun description _ => rfl
      split
      · exact decodeExtensibleChecked_eq e
      cases Comparison.ofTag? e.tag with
      | none => rfl
      | some comparison =>
          exact Checking.bind_eq (decodeAssertionChecked_eq e) fun assertion _ => rfl

/-- The filter that an element is. -/
def decodeChecked (element : Element) : Checking Filter :=
  decodeNestedChecked (maxDepth + 1) element

/-- A filter is read off an element without a look beyond the parts of any element in it. -/
theorem decodeChecked_eq (e : Element) : decodeChecked e = Checking.ofExcept (decode e) :=
  decodeNestedChecked_eq (maxDepth + 1) e

end Filter

end DirectoryAccess
