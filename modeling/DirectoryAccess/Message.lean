import DirectoryAccess.Control
import DirectoryAccess.Operation.Stream

/-!
# Messages

A message is an operation with a number, by which a response is known to belong
to its request, and with controls. It is sent as a sequence of these, an empty
list of controls left out. A number that is read may not be negative. A message
can be taken from an element that was read as a whole (`decode`) or be read from
a stream part by part (`read`).
-/

namespace DirectoryAccess

open Ber (Element Reader Reading Tag Writer showTag)

/-- An operation with its number and controls. -/
structure Message where
  /-- The number of the message. -/
  id : Int32
  /-- The operation. -/
  op : Operation
  /-- The controls of the operation. -/
  controls : List Control
  deriving DecidableEq, Inhabited

namespace Message

/-- The type of the list of controls. -/
def controlsTag : UInt8 := 0xA0

/-- The number of a message that was read, which may not be negative. -/
def checkId (id : Int32) : Except Failure Int32 :=
  if id < 0 then .error (.malformed s!"message ID must not be negative, got {id}") else .ok id

/-- The controls that the element behind an operation holds. -/
def decodeControls (id : Int32) (element : Element) : Except Failure (List Control) :=
  if element.tag = controlsTag then Control.decodeList element
  else
    .error (.malformed
      s!"unexpected element type {showTag element.tag} after the operation of message {id}")

/-! ## Messages as elements -/

/-- The element of a message. -/
def encode (message : Message) : Element :=
  .sequence Tag.sequence
    ([.integer Tag.integer message.id.toInt, message.op.encode] ++
      (if message.controls.isEmpty then []
        else [Control.encodeList controlsTag message.controls]))

/-- The message whose number, operation and controls some elements are. -/
def decodeParts (id op : Element) (controls? : Option Element) : Except Failure Message := do
  let id ← explain "cannot decode the message ID" id.asInt32 >>= checkId
  let op ← explain s!"cannot decode the operation of message {id}" (Operation.decode op)
  match controls? with
  | none => return ⟨id, op, []⟩
  | some controls => return ⟨id, op, ← decodeControls id controls⟩

/-- The message that an element is. -/
def decode (element : Element) : Except Failure Message := do
  match ← explain "LDAP message is not a valid sequence" element.asElements with
  | [id, op] => decodeParts id op none
  | [id, op, controls] => decodeParts id op (some controls)
  | parts => throw (.elementCount "LDAP message" "2 or 3" parts.length)

/-- The octets of a message. -/
def toOctets (message : Message) : Octets := message.encode.encode

/-- The message that some octets are, with nothing behind it. -/
def ofOctets (octets : Octets) : Except Failure Message := do
  decode (← explain "cannot read the LDAP message" (Element.decode octets))

/-! ## Messages in a stream -/

/-- Writes a message, its parts one after the other. -/
def write (w : Writer) (message : Message) : Writer :=
  let w := (w.openSequence Tag.sequence).element (.integer Tag.integer message.id.toInt)
  let w := message.op.write w
  let w := if message.controls.isEmpty then w
    else w.element (Control.encodeList controlsTag message.controls)
  w.closeSequence

/-- Reads the controls of a message. -/
def readControls (id : Int32) : Reading (List Control) := do
  let element ← Reading.explain "cannot read the message controls" Reading.element
  Reading.ofExcept (decodeControls id element)

/-- Reads a message, its parts one after the other. Where it fails, the message stays open. -/
def read : Reading Message := do
  let opened ← Reading.explain "cannot read the LDAP message sequence" Reading.openSequence
  let id ← Reading.explain "cannot decode the message ID" Reading.int32
  let id ← Reading.ofExcept (checkId id)
  let op ← Reading.explain s!"cannot decode the operation of message {id}" Operation.read
  let controls ←
    if ← Reading.view (·.hasMore opened) then readControls id else pure []
  Reading.explain s!"cannot close message {id}" (Reading.closeSequence opened)
  return ⟨id, op, controls⟩

/-- A message in words. -/
def describe (message : Message) : String :=
  let controls := if message.controls.isEmpty then ""
    else ", controls=\x7b" ++ Control.describeList message.controls ++ "\x7d"
  s!"LDAPMessage(msgID={message.id}, op={message.op.kind.name}{controls})"

end Message

end DirectoryAccess
