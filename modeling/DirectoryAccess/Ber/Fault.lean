import DirectoryAccess.Failure
import DirectoryAccess.Octets
import DirectoryAccess.Text.Utf8

/-!
# Faults of the basic encoding rules

What can be wrong with the octets of an element, one constructor a cause, and
the wording of each in one place.
-/

namespace DirectoryAccess.Ber

/-- How octets break the basic encoding rules or the limits set for a reader. -/
inductive Fault
  /-- A type octet announces that the type goes on in further octets. -/
  | multiOctetType (tag : UInt8)
  /-- No octet is left where a type belongs. -/
  | noType
  /-- No octet is left where a length belongs. -/
  | noLength
  /-- The length is left open. -/
  | indefiniteLength
  /-- The length takes more octets than are accepted. -/
  | wideLength (count : Nat)
  /-- The octets end inside the length. -/
  | lengthCutShort (needed present : Nat)
  /-- The declared value is longer than what follows. -/
  | overrun (tag : UInt8) (declared present : Nat)
  /-- Octets follow what should be the only element. -/
  | trailing (count : Nat)
  /-- A truth value of a length other than one. -/
  | booleanSize (size : Nat)
  /-- A null with a value. -/
  | nullSize (size : Nat)
  /-- A number without octets. -/
  | emptyInteger
  /-- A number of more than eight octets. -/
  | wideInteger (size : Nat)
  /-- A number that a signed 32-bit word cannot hold. -/
  | integerRange (value : Int)
  /-- A text that is not UTF-8. -/
  | text (fault : Utf8.Fault)
  /-- An element of another type than the expected one. -/
  | typeMismatch (expected actual : UInt8)
  /-- A value longer than the reader's limit. -/
  | elementSize (size limit : Nat)
  /-- More open sequences than the reader's limit. -/
  | depth (limit : Nat)
  /-- A sequence of a primitive type. -/
  | primitive (tag : UInt8)
  /-- A sequence that is not the innermost open one was to be closed. -/
  | notInnermost
  /-- A sequence was to be closed before its end. -/
  | unread (count : Nat) (tag : UInt8)
  deriving DecidableEq, Repr

/-- An octet in the notation of the messages. -/
def showTag (tag : UInt8) : String := "0x" ++ hexOctet tag

/-- The wording of a fault. -/
def Fault.message : Fault → String
  | multiOctetType tag => s!"Multi-byte BER type {showTag tag} is not supported"
  | noType => "Buffer exhausted while reading type"
  | noLength => "Empty buffer for length decoding"
  | indefiniteLength => "Indefinite length encoding is not allowed"
  | wideLength count => s!"Length encoding too large: {count} bytes (max 4)"
  | lengthCutShort needed present =>
    s!"Buffer too short for long form length: need {needed} bytes, got {present}"
  | overrun tag declared present =>
    s!"Element of type {showTag tag} declares {declared} value bytes but only {present} remain"
  | trailing count => s!"{count} trailing bytes after BER element"
  | booleanSize size => s!"BOOLEAN value must be exactly one byte, got {size}"
  | nullSize size => s!"NULL value must be empty, got {size} bytes"
  | emptyInteger => "Empty INTEGER encoding"
  | wideInteger size => s!"INTEGER too large: {size} bytes (max 8)"
  | integerRange value => s!"INTEGER value {value} does not fit in 32 bits"
  | text fault => s!"OCTET STRING value is not valid UTF-8: {fault.message}"
  | typeMismatch expected actual => s!"Expected BER type {showTag expected}, got {showTag actual}"
  | elementSize size limit => s!"Element size {size} exceeds the maximum allowed size {limit}"
  | depth limit => s!"Sequence nesting exceeds the maximum depth {limit}"
  | primitive tag => s!"BER type {showTag tag} is not a constructed type"
  | notInnermost => "Sequences must be closed innermost first"
  | unread count tag => s!"{count} unread bytes at the end of sequence {showTag tag}"

instance : Coe Fault Failure := ⟨fun fault => .ber fault.message⟩

/-- The text that some octets spell. -/
def decodeText (octets : Octets) : Except Failure String :=
  match Utf8.decode octets with
  | .ok text => .ok text
  | .error fault => .error (Fault.text fault)

end DirectoryAccess.Ber
