import DirectoryAccess.Ber.Element
import DirectoryAccess.Filter.Basic

/-!
# Filters as elements

The type of a filter's element says which kind it is. A conjunction or disjunction
is the sequence of its filters, a negation holds the one element of its filter,
and an assertion is a sequence of its parts. Reading goes down at most 100
connectives.
-/

namespace DirectoryAccess

open Ber (Element Tag showTag)

namespace Filter

/-- The type of a conjunction. -/
def allTag : UInt8 := 0xA0

/-- The type of a disjunction. -/
def anyTag : UInt8 := 0xA1

/-- The type of a negation. -/
def notTag : UInt8 := 0xA2

/-- The type of an assertion about the parts of a value. -/
def substringsTag : UInt8 := 0xA4

/-- The type of an assertion that an attribute is there. -/
def presentTag : UInt8 := 0x87

/-- The type of an assertion that names its own matching rule. -/
def extensibleTag : UInt8 := 0xA9

end Filter

/-- The type of an assertion that compares. -/
def Comparison.tag : Comparison → UInt8
  | equal => 0xA3
  | atLeast => 0xA5
  | atMost => 0xA6
  | approximate => 0xA8

/-- The comparison with the given type. -/
def Comparison.ofTag? (tag : UInt8) : Option Comparison :=
  [equal, atLeast, atMost, approximate].find? (·.tag == tag)

namespace SubstringPattern

/-- The type of what a value begins with. -/
def initialTag : UInt8 := 0x80

/-- The type of what comes in between. -/
def anyTag : UInt8 := 0x81

/-- The type of what a value ends with. -/
def finalTag : UInt8 := 0x82

/-- The elements of the parts of a pattern. -/
def encode (pattern : SubstringPattern) : List Element :=
  pattern.initial.toList.map (Element.mk initialTag) ++ pattern.any.map (Element.mk anyTag) ++
    pattern.final.toList.map (Element.mk finalTag)

/-- Takes one part into a pattern; what a value begins with comes first and what it ends with
last, each once. -/
def withPart (pattern : SubstringPattern) (part : Element) : Except Failure SubstringPattern :=
  if pattern.final.isSome then
    .error (.malformed "substring component after the final component")
  else if part.tag = initialTag ∧ pattern.initial.isNone ∧ pattern.any.isEmpty then
    .ok { pattern with initial := some part.value }
  else if part.tag = anyTag then .ok { pattern with any := pattern.any ++ [part.value] }
  else if part.tag = finalTag then .ok { pattern with final := some part.value }
  else .error (.malformed s!"unexpected substring component type {showTag part.tag}")

end SubstringPattern

namespace ExtensibleMatch

/-- The type of the matching rule. -/
def ruleTag : UInt8 := 0x81

/-- The type of the attribute. -/
def descriptionTag : UInt8 := 0x82

/-- The type of the asserted value. -/
def valueTag : UInt8 := 0x83

/-- The type of the flag for the attributes in an entry's name. -/
def dnAttributesTag : UInt8 := 0x84

/-- The elements of the parts of an assertion; a flag of false is left out. -/
def encode (assertion : ExtensibleMatch) : List Element :=
  assertion.rule.toList.map (Element.text ruleTag) ++
    assertion.description.toList.map (Element.text descriptionTag) ++
    [⟨valueTag, assertion.value⟩] ++
    (if assertion.dnAttributes then [.boolean dnAttributesTag true] else [])

/-- The parts of an assertion that have been read so far. -/
structure Parts where
  /-- The matching rule. -/
  rule : Option String
  /-- The attribute. -/
  description : Option String
  /-- The asserted value. -/
  value : Option Octets
  /-- The flag for the attributes in an entry's name. -/
  dnAttributes : Bool
  deriving DecidableEq, Repr

/-- Takes in one more part; rule and attribute come in front of the value, the flag behind. -/
def Parts.withPart (parts : Parts) (part : Element) : Except Failure Parts :=
  if part.tag = ruleTag ∧ parts.rule.isNone ∧ parts.value.isNone then do
    let rule ← explain "cannot decode the extensible match rule ID" part.asText
    return { parts with rule := some rule }
  else if part.tag = descriptionTag ∧ parts.description.isNone ∧ parts.value.isNone then do
    let description ← explain "cannot decode the extensible match attribute" part.asText
    return { parts with description := some description }
  else if part.tag = valueTag ∧ parts.value.isNone then
    return { parts with value := some part.value }
  else if part.tag = dnAttributesTag ∧ parts.value.isSome then do
    let dnAttributes ← explain "cannot decode the extensible match dnAttributes flag" part.asBool
    return { parts with dnAttributes }
  else throw (.malformed s!"unexpected extensible match element type {showTag part.tag}")

end ExtensibleMatch

namespace Filter

/-! ## Writing -/

mutual

/-- The element of a filter. -/
def encode : Filter → Element
  | all filters => .sequence allTag (encodeAll filters)
  | any filters => .sequence anyTag (encodeAll filters)
  | not filter => ⟨notTag, filter.encode.encode⟩
  | compare comparison description value =>
    .sequence comparison.tag [.text Tag.octetString description, ⟨Tag.octetString, value⟩]
  | substrings description pattern =>
    .sequence substringsTag
      [.text Tag.octetString description, .sequence Tag.sequence pattern.encode]
  | present description => .text presentTag description
  | extensible assertion => .sequence extensibleTag assertion.encode

/-- The elements of some filters. -/
def encodeAll : List Filter → List Element
  | [] => []
  | filter :: filters => filter.encode :: encodeAll filters

end

/-- The type of a filter's element. -/
def tag : Filter → UInt8
  | all _ => allTag
  | any _ => anyTag
  | not _ => notTag
  | compare comparison _ _ => comparison.tag
  | substrings _ _ => substringsTag
  | present _ => presentTag
  | extensible _ => extensibleTag

/-! ## Reading -/

/-- The attribute and the value of an assertion that compares. -/
def decodeAssertion (element : Element) : Except Failure (String × Octets) := do
  match ← explain "attribute value assertion is not a valid sequence" element.asElements with
  | [description, value] =>
    return (← explain "cannot decode the assertion attribute" description.asText, value.value)
  | parts => throw (.elementCount "attribute value assertion" "2" parts.length)

/-- The filter of an element about the parts of a value. -/
def decodeSubstrings (element : Element) : Except Failure Filter := do
  match ← explain "substring filter is not a valid sequence" element.asElements with
  | [description, pattern] =>
    let description ← explain "cannot decode the substring filter attribute" description.asText
    let parts ← explain "cannot decode the substring components" pattern.asElements
    let pattern ← parts.foldlM SubstringPattern.withPart ⟨none, [], none⟩
    explain "invalid substring filter" (ofSubstrings description pattern)
  | parts => throw (.elementCount "substring filter" "2" parts.length)

/-- The filter of an element that names its own matching rule. -/
def decodeExtensible (element : Element) : Except Failure Filter := do
  let elements ← explain "extensible match filter is not a valid sequence" element.asElements
  let parts ← elements.foldlM ExtensibleMatch.Parts.withPart ⟨none, none, none, false⟩
  match parts.value with
  | none => throw (.malformed "extensible match filter has no assertion value")
  | some value =>
    explain "invalid extensible match filter"
      (ofExtensible ⟨parts.rule, parts.description, value, parts.dnAttributes⟩)

/-- The most connectives that may enclose a filter that is read. -/
def maxDepth : Nat := 100

/-- The filter that an element is, if it is nested in fewer than `levels` levels. -/
def decodeNested : Nat → Element → Except Failure Filter
  | 0, _ =>
    .error (.malformed s!"filter nesting exceeds the maximum depth {maxDepth}")
  | levels + 1, element =>
    if element.tag = allTag then do
      let parts ← explain "cannot decode the filter set" element.asElements
      return .all (← parts.mapM (decodeNested levels))
    else if element.tag = anyTag then do
      let parts ← explain "cannot decode the filter set" element.asElements
      return .any (← parts.mapM (decodeNested levels))
    else if element.tag = notTag then do
      let inner ← explain "cannot decode the NOT filter component" (Element.decode element.value)
      return .not (← decodeNested levels inner)
    else if element.tag = substringsTag then decodeSubstrings element
    else if element.tag = presentTag then do
      return .present
        (← explain "cannot decode the presence filter attribute" element.asText)
    else if element.tag = extensibleTag then decodeExtensible element
    else
      match Comparison.ofTag? element.tag with
      | some comparison => do
        let (description, value) ← decodeAssertion element
        return .compare comparison description value
      | none => throw (.malformed s!"unsupported filter type {showTag element.tag}")

/-- The filter that an element is. -/
def decode (element : Element) : Except Failure Filter := decodeNested (maxDepth + 1) element

end Filter

end DirectoryAccess
