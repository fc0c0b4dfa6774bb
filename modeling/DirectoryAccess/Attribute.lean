import DirectoryAccess.Ber.Element
import DirectoryAccess.Text.Lowercase

/-!
# Attributes and their modification

An attribute is a name with a list of values, a modification one change to be
made to an attribute. The values are sent as a set, in the order of the list. A
choice among a few, such as that of a change, is sent as a number; a number that
belongs to none of them is refused.
-/

namespace DirectoryAccess

open Ber (Element Tag)

/-- A name with values. -/
structure Attribute where
  /-- The attribute description. -/
  name : String
  /-- The values, in the order in which they are sent. -/
  values : List Octets
  deriving DecidableEq, Repr

namespace Attribute

/-- An attribute whose values are texts. -/
def ofTexts (name : String) (texts : List String) : Attribute := ⟨name, texts.map Utf8.encode⟩

/-- The element of an attribute. -/
def encode (attr : Attribute) : Element :=
  .sequence Tag.sequence
    [.text Tag.octetString attr.name,
      .sequence Tag.set (attr.values.map (Element.mk Tag.octetString))]

/-- The attribute that an element is. -/
def decode (element : Element) : Except Failure Attribute := do
  match ← explain "attribute is not a valid sequence" element.asElements with
  | [name, values] =>
    let name ← explain "cannot decode the attribute description" name.asText
    let values ← explain s!"cannot decode the values of attribute {name}" values.asElements
    return ⟨name, values.map (·.value)⟩
  | parts => throw (.elementCount "attribute sequence" "2" parts.length)

/-- The element of a list of attributes. -/
def encodeList (attributes : List Attribute) : Element :=
  .sequence Tag.sequence (attributes.map encode)

/-- The list of attributes that an element is. -/
def decodeList (element : Element) : Except Failure (List Attribute) := do
  (← explain "attribute list is not a valid sequence" element.asElements).mapM decode

/-- The first attribute with the given name, in any case. -/
def find? (attributes : List Attribute) (name : String) : Option Attribute :=
  attributes.find? fun attr => lowercaseAscii attr.name == lowercaseAscii name

end Attribute

/-- The choice with the given number, where `what` names what is chosen. -/
def chooseByCode {α : Type} (what : String) (choices : List α) (code : α → Int32) (v : Int32) :
    Except Failure α :=
  match choices.find? fun choice => code choice == v with
  | some choice => .ok choice
  | none => .error (.malformed s!"invalid {what} {v}")

/-- What a modification does with the values of its attribute. -/
inductive Change
  | add
  | delete
  | replace
  | increment
  deriving DecidableEq, Repr

namespace Change

/-- The number of a change. -/
def code : Change → Int32
  | add => 0
  | delete => 1
  | replace => 2
  | increment => 3

/-- The change with the given number. -/
def ofCode : Int32 → Except Failure Change :=
  chooseByCode "modification type" [add, delete, replace, increment] code

end Change

/-- One change to an attribute. -/
structure Modification where
  /-- What is done. -/
  change : Change
  /-- The attribute, with the values that it is done with. -/
  target : Attribute
  deriving DecidableEq, Repr

namespace Modification

/-- The element of a modification. -/
def encode (modification : Modification) : Element :=
  .sequence Tag.sequence
    [.integer Tag.enumerated modification.change.code.toInt, modification.target.encode]

/-- The modification that an element is. -/
def decode (element : Element) : Except Failure Modification := do
  match ← explain "modification is not a valid sequence" element.asElements with
  | [change, target] =>
    let change ← explain "cannot decode the modification type" (change.asInt32 >>= Change.ofCode)
    return ⟨change, ← Attribute.decode target⟩
  | parts => throw (.elementCount "modification sequence" "2" parts.length)

end Modification

end DirectoryAccess
