import DirectoryAccess.Message
import DirectoryAccess.Proofs.Checked.Operation

/-!
# Messages with every bound checked

A message has its number and its operation at the first two places of a sequence of
two or three parts, and may have controls at the third. Here each place is checked.
-/

namespace DirectoryAccess

open Ber (Element showTag)

namespace Message

/-- The controls that the element behind an operation holds. -/
def decodeControlsChecked (id : Int32) (element : Element) : Checking (List Control) :=
  if element.tag = controlsTag then Control.decodeListChecked element
  else
    Checking.fail (.malformed
      s!"unexpected element type {showTag element.tag} after the operation of message {id}")

/-- The controls of a message are read off an element without a look beyond its parts. -/
theorem decodeControlsChecked_eq (id : Int32) (e : Element) :
    decodeControlsChecked id e = Checking.ofExcept (decodeControls id e) := by
  rw [decodeControlsChecked, decodeControls]
  split
  · exact Control.decodeListChecked_eq e
  · rfl

/-- The message that an element is. -/
def decodeChecked (element : Element) : Checking Message := do
  let parts ← Checking.explain "LDAP message is not a valid sequence" element.asElementsChecked
  if parts.length ≠ 2 ∧ parts.length ≠ 3 then
    Checking.fail (.elementCount "LDAP message" "2 or 3" parts.length)
  else
    let id ← Checking.explain "cannot decode the message ID"
      (Checking.part parts 0 >>= Element.asInt32Checked)
    let id ← Checking.ofExcept (checkId id)
    let op ← Checking.explain s!"cannot decode the operation of message {id}"
      (Checking.part parts 1 >>= Operation.decodeChecked)
    match parts[2]? with
    | none => return ⟨id, op, []⟩
    | some controls => return ⟨id, op, ← decodeControlsChecked id controls⟩

/-- A message is read off an element without a look beyond its two or three parts. -/
theorem decodeChecked_eq (e : Element) : decodeChecked e = Checking.ofExcept (decode e) := by
  refine Checking.bind_eq (Checking.explain_eq _ e.asElementsChecked_eq) fun parts _ => ?_
  rcases parts with _ | ⟨id, _ | ⟨op, _ | ⟨controls, _ | ⟨part, parts⟩⟩⟩⟩
  · rfl
  · rfl
  · simp only [decodeParts, bind_assoc]
    refine Checking.bind_eq (Checking.explain_eq _ id.asInt32Checked_eq) fun id _ => ?_
    refine Checking.bind_eq rfl fun id _ => ?_
    exact Checking.bind_eq (Checking.explain_eq _ (Operation.decodeChecked_eq op)) fun op _ => rfl
  · simp only [decodeParts, bind_assoc]
    refine Checking.bind_eq (Checking.explain_eq _ id.asInt32Checked_eq) fun id _ => ?_
    refine Checking.bind_eq rfl fun id _ => ?_
    refine Checking.bind_eq (Checking.explain_eq _ (Operation.decodeChecked_eq op)) fun op _ => ?_
    exact Checking.bind_eq (decodeControlsChecked_eq id controls) fun controls _ => rfl
  · exact if_pos (by simp only [List.length_cons]; omega)

/-- The message that some octets are, with nothing behind it. -/
def ofOctetsChecked (octets : Octets) : Checking Message := do
  let element ← Checking.explain "cannot read the LDAP message" (Element.decodeChecked octets)
  decodeChecked element

/-- A message is read off octets without a look beyond them. -/
theorem ofOctetsChecked_eq (octets : Octets) :
    ofOctetsChecked octets = Checking.ofExcept (ofOctets octets) :=
  Checking.bind_eq (Checking.explain_eq _ (Element.decodeChecked_eq octets)) fun e _ =>
    decodeChecked_eq e

end Message

end DirectoryAccess
