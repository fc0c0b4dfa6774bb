import DirectoryAccess.Ber.Element
import DirectoryAccess.Oid

/-!
# Controls

A control is named by an object identifier, may be critical and may have a value.
It is sent as a sequence of these, a criticality of false left out; reading takes
the optional parts in their order, the value last.
-/

namespace DirectoryAccess

open Ber (Element Tag showTag)

/-- An extension of a request or of a response. -/
structure Control where
  /-- The name of the control. -/
  oid : Oid
  /-- Whether the operation must fail where the control is unknown. -/
  critical : Bool
  /-- What the control carries. -/
  value : Option Octets
  deriving DecidableEq, Repr

namespace Control

/-- A control that has only a name. -/
def ofName (name : String) : Except Failure Control := do
  return ⟨← Oid.ofString name, false, none⟩

/-- The element of a control. -/
def encode (control : Control) : Element :=
  .sequence Tag.sequence
    (.text Tag.octetString control.oid.text ::
      ((if control.critical then [.boolean Tag.boolean true] else []) ++
        control.value.toList.map (Element.mk Tag.octetString)))

/-- Takes the optional parts of a control into it. -/
def withParts (control : Control) : List Element → Except Failure Control
  | [] => .ok control
  | part :: parts =>
    if part.tag = Tag.boolean ∧ control.value.isNone then do
      let critical ← explain s!"cannot decode the criticality of control {control.oid.text}"
        part.asBool
      withParts { control with critical } parts
    else if part.tag = Tag.octetString ∧ control.value.isNone then
      withParts { control with value := some part.value } parts
    else
      .error (.malformed
        s!"unexpected element type {showTag part.tag} in control {control.oid.text}")

/-- The control that an element is. -/
def decode (element : Element) : Except Failure Control := do
  let parts ← explain "control is not a valid sequence" element.asElements
  match parts with
  | [] => throw (.elementCount "control sequence" "between 1 and 3" 0)
  | name :: rest =>
    if 3 < parts.length then
      throw (.elementCount "control sequence" "between 1 and 3" parts.length)
    let oid ← explain "cannot decode the control OID" (name.asText >>= Oid.ofString)
    withParts ⟨oid, false, none⟩ rest

/-- The element of a list of controls, of the given type. -/
def encodeList (tag : UInt8) (controls : List Control) : Element :=
  .sequence tag (controls.map encode)

/-- The list of controls that an element of any type is. -/
def decodeList (element : Element) : Except Failure (List Control) := do
  let parts ← explain "controls element is not a valid sequence" element.asElements
  parts.zipIdx.mapM fun (part, index) => explain s!"cannot decode control {index}" (decode part)

/-- A control in words. -/
def describe (control : Control) : String :=
  let value := match control.value with
    | some value => s!", valueLength={value.length}"
    | none => ""
  s!"Control(oid={control.oid.text}, isCritical={control.critical}{value})"

/-- Controls in words, with commas between them. -/
def describeList (controls : List Control) : String :=
  ", ".intercalate (controls.map describe)

end Control

end DirectoryAccess
